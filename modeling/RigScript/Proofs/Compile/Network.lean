import RigScript.Proofs.Compile.Run
import RigScript.Proofs.Graph.Frame

/-!
# The networks that operations become

Every operation of a script becomes one or two new nodes. This module says what they compute: in
any later graph that has kept the new nodes, the output of the network has the value of the
operation at the values of its operands, and it lacks a value exactly when an operand does. The
nodes that were there before are untouched.

## Main definitions

* `RigScript.Graph.Realizes`: the nodes built between two graphs give something its meaning
* `RigScript.Graph.Fresh`: a new node to which nothing is connected yet

## Main results

* `RigScript.Build.realizes_multiplyDivide` and its neighbours: what each operation computes
-/

namespace RigScript

/-! ### Operands -/

namespace Operand

/-- The value that an operand stands for. -/
def number? (a : Operand) (g : Graph) : Option Float :=
  match a with
  | .constant x => some x
  | .plug p => g.number? p

/-- The recipe of a plug to which an operand is supplied. -/
def recipe : Operand → Recipe
  | .constant x => .stored x
  | .plug p => .follow p

/-- The number that an operand is, if it is one. -/
def constant? : Operand → Option Float
  | .constant x => some x
  | .plug _ => none

theorem eval?_recipe (a : Operand) (g : Graph) : a.recipe.eval? g.number? = a.number? g := by
  cases a <;> rfl

end Operand

/-! ### What was built -/

namespace Graph

variable {α : Type} {g g₁ g₂ later : Graph}

/-- A later graph **keeps what was built** between `g` and `g₁`: it agrees with `g₁` on the nodes
that are new there. -/
def KeepsBuilt (g g₁ later : Graph) : Prop :=
  AgreeOn (fun name => name ∈ g₁.nodes ∧ name ∉ g.nodes) g₁ later

/-- What keeps a whole building keeps the first part of it. -/
theorem KeepsBuilt.first (h : KeepsBuilt g g₂ later) (h₂ : g₁.Extends g₂) :
    KeepsBuilt g g₁ later := by
  intro name ⟨hmem, hnew⟩
  obtain ⟨hnode, hsource⟩ := h name ⟨h₂.mem_nodes hmem, hnew⟩
  obtain ⟨hnode', hsource'⟩ := h₂ name hmem
  exact ⟨hnode.trans hnode', fun attr => (hsource attr).trans (hsource' attr)⟩

/-- What keeps a whole building keeps the second part of it. -/
theorem KeepsBuilt.second (h : KeepsBuilt g g₂ later) (h₁ : g.Extends g₁) :
    KeepsBuilt g₁ g₂ later :=
  h.mono fun _ ⟨hmem, hnew⟩ => ⟨hmem, fun hold => hnew (h₁.mem_nodes hold)⟩

/-- The nodes built between `g` and `g₁` **realize** a meaning: the old nodes are untouched, and
what is read off any later graph that keeps the new ones is what is meant there. -/
structure Realizes (g g₁ : Graph) (read meaning : Graph → α) : Prop where
  grown : g.Extends g₁
  read_eq : ∀ later, KeepsBuilt g g₁ later → read later = meaning later

namespace Realizes

/-- Nothing has to be built for what already has its meaning. -/
theorem refl (g : Graph) (read : Graph → α) : g.Realizes g read read :=
  ⟨.refl _ g, fun _ _ => rfl⟩

/-- The meaning may be stated in another way. -/
theorem congr {read meaning meaning' : Graph → α} (h : g.Realizes g₁ read meaning)
    (heq : ∀ later, meaning later = meaning' later) : g.Realizes g₁ read meaning' :=
  ⟨h.grown, fun later hlater => (h.read_eq later hlater).trans (heq later)⟩

/-- A function of what is realized is realized. -/
theorem map {β : Type} {read meaning : Graph → α} (h : g.Realizes g₁ read meaning) (f : α → β) :
    g.Realizes g₁ (fun later => f (read later)) fun later => f (meaning later) :=
  ⟨h.grown, fun later hlater => congrArg f (h.read_eq later hlater)⟩

/-- Two things built one after the other are both realized. -/
theorem prod {β : Type} {read meaning : Graph → α} {read' meaning' : Graph → β}
    (h : g.Realizes g₁ read meaning) (h₂ : g₁.Realizes g₂ read' meaning') :
    g.Realizes g₂ (fun later => (read later, read' later))
      fun later => (meaning later, meaning' later) := by
  refine ⟨h.grown.trans h₂.grown, fun later hlater => ?_⟩
  rw [h.read_eq later (hlater.first h₂.grown), h₂.read_eq later (hlater.second h.grown)]

/-- What is realized on top of something realized has its meaning. -/
theorem comp {β : Type} {read meaning : Graph → α} {read' : Graph → β}
    {f : α → β} (h : g.Realizes g₁ read meaning)
    (h₂ : g₁.Realizes g₂ read' fun later => f (read later)) :
    g.Realizes g₂ read' fun later => f (meaning later) := by
  refine ⟨h.grown.trans h₂.grown, fun later hlater => ?_⟩
  rw [h₂.read_eq later (hlater.second h.grown), h.read_eq later (hlater.first h₂.grown)]

end Realizes

/-! ### New nodes -/

/-- The name is that of a **fresh** node: it is new in `g₁`, the node there is `n`, nothing is
connected to it yet, and no other node is touched. -/
structure Fresh (g g₁ : Graph) (name : String) (n : Node) : Prop where
  notMem : name ∉ g.nodes
  agree : AgreeOn (· ≠ name) g g₁
  node_eq : g₁.nodes[name]? = some n
  unwired : ∀ attr, g₁.source? ⟨name, attr⟩ = none

namespace Fresh

variable {name attr : String} {n : Node}

/-- A fresh node after its stored attributes, its locks or its curve were changed. -/
theorem putNode (h : Fresh g g₁ name n) (m : Node) (journal : List Change) :
    Fresh g { g₁ with nodes := g₁.nodes.insert name m, journal } name m where
  notMem := h.notMem
  agree := h.agree.trans (agreeOn_putNode g₁ name m journal)
  node_eq := Std.ExtTreeMap.getElem?_insert_self
  unwired := h.unwired

theorem setAttribute {v : Value} (h : Fresh g g₁ name n)
    (hset : g₁.perform (.setAttribute ⟨name, attr⟩ v) = .ok ((), g₂)) :
    Fresh g g₂ name
      { n with attributes := n.attributes.insert attr (v.storedOver n.attributes[attr]?) } := by
  obtain ⟨m, hm, -, -, rfl⟩ := perform_setAttribute.1 hset
  obtain rfl : m = n := by simpa [h.node_eq] using (checkAttr_eq_ok_iff.1 hm).1.symm
  exact h.putNode _ _

theorem createKeyframe {key : Keyframe Float} (h : Fresh g g₁ name n)
    (hkey : g₁.perform (.createKeyframe name key) = .ok ((), g₂)) :
    Fresh g g₂ name { n with curve := n.curve.addKey key } := by
  obtain ⟨m, hm, rfl⟩ := perform_createKeyframe.1 hkey
  obtain rfl : m = n := by simpa [h.node_eq] using (checkCurve_eq_ok_iff.1 hm).1.symm
  exact h.putNode _ _

theorem setExtrapolation {pre post : Extrapolation} (h : Fresh g g₁ name n)
    (hset : g₁.perform (.setExtrapolation name pre post) = .ok ((), g₂)) :
    Fresh g g₂ name { n with curve := { n.curve with pre, post } } := by
  obtain ⟨m, hm, rfl⟩ := perform_setExtrapolation.1 hset
  obtain rfl : m = n := by simpa [h.node_eq] using (checkCurve_eq_ok_iff.1 hm).1.symm
  exact h.putNode _ _

theorem kind?_eq (h : Fresh g g₁ name n) : g₁.kind? name = some n.kind := by
  rw [kind?, h.node_eq]
  rfl

/-- The recipe of an output of a fresh node is its formula. -/
theorem recipe_formula {r : Recipe} (h : Fresh g g₁ name n)
    (hf : n.formula? ⟨name, attr⟩ = some r) : g₁.recipe ⟨name, attr⟩ = .ok r :=
  recipe_of_formula (h.unwired attr) h.node_eq hf

/-- The recipe of any other plug of a fresh node is what it stores. -/
theorem recipe_stored {v : Value} {x : Float} (h : Fresh g g₁ name n)
    (hout : attr ∉ n.kind.outputs) (hv : n.attributes[attr]? = some v) (hx : v.toFloat? = some x) :
    g₁.recipe ⟨name, attr⟩ = .ok (.stored x) :=
  recipe_of_stored (h.unwired attr) h.node_eq hout hv hx

end Fresh

/-- What a new node computes, judged by its recipes alone, is realized by building it. -/
theorem realizes_of_recipes {name attr : String} {meaning : Graph → Option Float}
    (hnew : name ∉ g.nodes) (hagree : AgreeOn (· ≠ name) g g₁) (hmem : name ∈ g₁.nodes)
    (hread : ∀ later : Graph, (∀ a, later.recipe ⟨name, a⟩ = g₁.recipe ⟨name, a⟩) →
      later.number? ⟨name, attr⟩ = meaning later) :
    g.Realizes g₁ (Operand.plug ⟨name, attr⟩).number? meaning where
  grown := hagree.mono fun m hm => by
    rintro rfl
    exact hnew hm
  read_eq later hlater := hread later fun a => hlater.recipe_eq (p := ⟨name, a⟩) ⟨hmem, hnew⟩

/-- Plugs of one node with different attributes are different. -/
theorem plug_ne {name attr attr' : String} (h : attr ≠ attr') :
    (⟨name, attr⟩ : Plug) ≠ ⟨name, attr'⟩ := by
  simp [h]

/-- A node that was there stays there when plugs are rewired. -/
theorem Rewired.mem_nodes {p : Plug} {r : Recipe} {name : String} (h : g.Rewired g₁ p r)
    (hname : name ∈ g.nodes) : name ∈ g₁.nodes := by
  rw [mem_nodes_iff_isSome_kind?] at hname ⊢
  rwa [h.kind?_eq name]

/-- A fresh node whose formula has two inputs, once both are wired, computes the formula of what
they were wired to. -/
theorem realizes_compute₂ {g₃ : Graph} {name out in₁ in₂ : String} {n : Node}
    {f : Float → Float → Float} {r₁ r₂ : Recipe} (hn : Fresh g g₁ name n)
    (hf : n.formula? ⟨name, out⟩ = some (.compute₂ f ⟨name, in₁⟩ ⟨name, in₂⟩))
    (h₁ : g₁.Rewired g₂ ⟨name, in₁⟩ r₁) (h₂ : g₂.Rewired g₃ ⟨name, in₂⟩ r₂)
    (hne₁ : out ≠ in₁) (hne₂ : out ≠ in₂) (hne : in₁ ≠ in₂) :
    g.Realizes g₃ (Operand.plug ⟨name, out⟩).number? fun later => do
      return f (← r₁.eval? later.number?) (← r₂.eval? later.number?) := by
  refine realizes_of_recipes hn.notMem ((hn.agree.trans h₁.agree).trans h₂.agree)
    (h₂.mem_nodes (h₁.mem_nodes (mem_nodes_of_eq_some hn.node_eq))) fun later hlater => ?_
  have hout : later.recipe ⟨name, out⟩ = .ok (.compute₂ f ⟨name, in₁⟩ ⟨name, in₂⟩) := by
    rw [hlater, h₂.recipe_of_ne _ (plug_ne hne₂), h₁.recipe_of_ne _ (plug_ne hne₁),
      hn.recipe_formula hf]
  have hin₁ : later.recipe ⟨name, in₁⟩ = .ok r₁ := by
    rw [hlater, h₂.recipe_of_ne _ (plug_ne hne), h₁.recipe_self]
  have hin₂ : later.recipe ⟨name, in₂⟩ = .ok r₂ := by
    rw [hlater, h₂.recipe_self]
  rw [number?_of_recipe hout, Recipe.eval?, number?_of_recipe hin₁, number?_of_recipe hin₂]

/-- A new node whose formula has three inputs computes the formula of what their recipes give. -/
theorem realizes_compute₃ {name out in₁ in₂ in₃ : String} {f : Float → Float → Float → Float}
    {r₁ r₂ r₃ : Recipe} (hnew : name ∉ g.nodes) (hagree : AgreeOn (· ≠ name) g g₁)
    (hmem : name ∈ g₁.nodes)
    (hout : g₁.recipe ⟨name, out⟩ = .ok (.compute₃ f ⟨name, in₁⟩ ⟨name, in₂⟩ ⟨name, in₃⟩))
    (h₁ : g₁.recipe ⟨name, in₁⟩ = .ok r₁) (h₂ : g₁.recipe ⟨name, in₂⟩ = .ok r₂)
    (h₃ : g₁.recipe ⟨name, in₃⟩ = .ok r₃) :
    g.Realizes g₁ (Operand.plug ⟨name, out⟩).number? fun later => do
      return f (← r₁.eval? later.number?) (← r₂.eval? later.number?)
        (← r₃.eval? later.number?) := by
  refine realizes_of_recipes hnew hagree hmem fun later hlater => ?_
  rw [number?_of_recipe ((hlater out).trans hout), Recipe.eval?,
    number?_of_recipe ((hlater in₁).trans h₁), number?_of_recipe ((hlater in₂).trans h₂),
    number?_of_recipe ((hlater in₃).trans h₃)]

end Graph

/-! ### Single operations -/

/-- The curve that a remainder by a number becomes: it rises from zero to one just below the
divisor, and repeats. -/
def remainderCurve (epsilon divisor : Float) : Curve Float :=
  { (({} : Curve Float).addKey ⟨0.0, 0.0⟩).addKey ⟨divisor - epsilon, 1.0⟩ with
    pre := .cyclic
    post := .cyclic }

namespace Build

open RigScript.Graph

variable {names names' : List String} {g g' : Graph} {a b o : Operand}

/-- A request that a scene graph grants. -/
theorem yields_ask_graph {r : Request} {reply : r.Reply} :
    (ask r).Yields Graph.host names g reply names' g' ↔
      g.perform r = .ok (reply, g') ∧ names = names' := by
  rw [yields_ask, Graph.host_respond_eq_ok]

/-- A created node is fresh. -/
theorem fresh_create {kind : NodeKind} {name : String} (hg : g.WellFormed)
    (h : (create kind).Yields Graph.host names g name names' g') :
    Fresh g g' name (.ofKind kind) := by
  obtain ⟨hr, -⟩ := yields_create.1 h
  obtain ⟨rfl, rfl⟩ := perform_createNode.1 (Graph.host_respond_eq_ok.1 hr)
  have hnew := g.freshName_notMem kind
  refine ⟨hnew, agreeOn_putNode g _ _ _, Std.ExtTreeMap.getElem?_insert_self, fun attr => ?_⟩
  -- A connection to the new name would have ended on a node that was not there.
  cases hs : g.source? ⟨g.freshName kind, attr⟩ with
  | none => exact hs
  | some source => exact absurd (hg.dest_mem _ _ hs) hnew

/-- Supplying an operand to an input of a computing node rewires the input. -/
theorem rewired_supply {name attr : String} {k : NodeKind} (hk : g.kind? name = some k)
    (hp : attr ∈ k.inputs) (h : (supply a ⟨name, attr⟩).Yields Graph.host names g () names' g') :
    g.Rewired g' ⟨name, attr⟩ a.recipe := by
  cases a with
  | constant x =>
      obtain ⟨hset, -⟩ := yields_ask_graph.1 h
      exact rewired_setAttribute hset rfl hk hp
  | plug source =>
      obtain ⟨hconn, -⟩ := yields_ask_graph.1 h
      exact rewired_connect hconn

/-- A written operation selects the second formula when it is two. -/
theorem selectsSecond_insert (n : Node) (op : String) (i : Int64) (old : Option Value) :
    Node.selectsSecond
      { n with attributes := n.attributes.insert op (Value.storedOver old (.int i)) } op =
      (decide (2.0 ≤ Float.ofInt i.toInt) && decide (Float.ofInt i.toInt < 3.0)) := by
  have hstored : Value.storedOver old (.int i) = .int i := by
    unfold Value.storedOver
    split <;> simp_all
  simp [Node.selectsSecond, hstored, Value.toFloat?]

/-- **A product or a quotient** of two operands. -/
theorem realizes_multiplyDivide {divide : Bool} (hg : g.WellFormed)
    (h : (multiplyDivide a b divide).Yields Graph.host names g o names' g') :
    o.constant? = none ∧ g.Realizes g' o.number? fun later => do
      let x ← a.number? later
      let y ← b.number? later
      return if divide then x / y else x * y := by
  obtain ⟨node, names₁, g₁, hcreate, h⟩ := yields_bind.1 h
  have hfresh := fresh_create hg hcreate
  -- The operation is written only for a quotient; a fresh node is a product.
  obtain ⟨n, names₂, g₂, hn, hkind, hop, h⟩ : ∃ n names₂ g₂, Fresh g g₂ node n ∧
      n.kind = .primitive .multiplyDivide ∧
      n.selectsSecond MultiplyDivide.operation = divide ∧
      (do supply a ⟨node, MultiplyDivide.input1⟩
          supply b ⟨node, MultiplyDivide.input2⟩
          return .plug ⟨node, MultiplyDivide.output⟩ : Build Operand).Yields Graph.host
        names₂ g₂ o names' g' := by
    cases divide with
    | false => exact ⟨_, names₁, g₁, hfresh, rfl, by decide, h⟩
    | true =>
        obtain ⟨⟨⟩, names₂, g₂, hset, h⟩ := yields_bind.1 h
        obtain ⟨hset, -⟩ := yields_ask_graph.1 hset
        refine ⟨_, names₂, g₂, hfresh.setAttribute hset, rfl, ?_, h⟩
        rw [selectsSecond_insert]
        decide
  obtain ⟨⟨⟩, names₃, g₃, ha, h⟩ := yields_bind.1 h
  obtain ⟨⟨⟩, names₄, g₄, hb, h⟩ := yields_bind.1 h
  obtain ⟨rfl, rfl, rfl⟩ := yields_pure.1 h
  have hk : g₂.kind? node = some (.primitive .multiplyDivide) := hkind ▸ hn.kind?_eq
  have hwire₁ := rewired_supply hk (by decide) ha
  have hwire₂ := rewired_supply ((hwire₁.kind?_eq node).trans hk) (by decide) hb
  have hreal := realizes_compute₂ hn (Node.formula?_multiplyDivide hkind node) hwire₁ hwire₂
    (by decide) (by decide) (by decide)
  simp only [Operand.eval?_recipe, hop] at hreal
  cases divide <;> exact ⟨rfl, hreal⟩

/-- **A sum or a difference** of two operands. -/
theorem realizes_plusMinus {subtract : Bool} (hg : g.WellFormed)
    (h : (plusMinus a b subtract).Yields Graph.host names g o names' g') :
    o.constant? = none ∧ g.Realizes g' o.number? fun later => do
      let x ← a.number? later
      let y ← b.number? later
      return if subtract then x - y else x + y := by
  obtain ⟨node, names₁, g₁, hcreate, h⟩ := yields_bind.1 h
  obtain ⟨⟨⟩, names₂, g₂, hset, h⟩ := yields_bind.1 h
  obtain ⟨⟨⟩, names₃, g₃, ha, h⟩ := yields_bind.1 h
  obtain ⟨⟨⟩, names₄, g₄, hb, h⟩ := yields_bind.1 h
  obtain ⟨rfl, rfl, rfl⟩ := yields_pure.1 h
  have hn := (fresh_create hg hcreate).setAttribute (yields_ask_graph.1 hset).1
  have hk : g₂.kind? node = some (.primitive .plusMinusAverage) := hn.kind?_eq
  have hwire₁ := rewired_supply hk (by decide) ha
  have hwire₂ := rewired_supply ((hwire₁.kind?_eq node).trans hk) (by decide) hb
  have hreal := realizes_compute₂ hn (Node.formula?_plusMinusAverage rfl node) hwire₁ hwire₂
    (by decide) (by decide) (by decide)
  simp only [Operand.eval?_recipe, selectsSecond_insert] at hreal
  cases subtract <;> exact ⟨rfl, hreal⟩

/-- **A remainder** is a sample of its curve. Only the remainder by a number is built. -/
theorem realizes_modulo {epsilon : Float} (hg : g.WellFormed)
    (h : (modulo epsilon a b).Yields Graph.host names g o names' g') :
    ∃ divisor, b = .constant divisor ∧ o.constant? = none ∧
      g.Realizes g' o.number? fun later => do
        return (remainderCurve epsilon divisor).sample (← a.number? later) := by
  cases b with
  | plug p => exact absurd h not_yields_throw
  | constant divisor =>
      refine ⟨divisor, rfl, ?_⟩
      simp only [modulo] at h
      split at h
      · obtain ⟨⟨⟩, _, _, hthrow, -⟩ := yields_bind.1 h
        exact absurd hthrow not_yields_throw
      obtain ⟨node, names₁, g₁, hcreate, h⟩ := yields_bind.1 h
      obtain ⟨⟨⟩, names₂, g₂, hkey₁, h⟩ := yields_bind.1 h
      obtain ⟨⟨⟩, names₃, g₃, hkey₂, h⟩ := yields_bind.1 h
      obtain ⟨⟨⟩, names₄, g₄, hext, h⟩ := yields_bind.1 h
      obtain ⟨⟨⟩, names₅, g₅, ha, h⟩ := yields_bind.1 h
      obtain ⟨rfl, rfl, rfl⟩ := yields_pure.1 h
      have hn := (((fresh_create hg hcreate).createKeyframe
        (yields_ask_graph.1 hkey₁).1).createKeyframe
          (yields_ask_graph.1 hkey₂).1).setExtrapolation (yields_ask_graph.1 hext).1
      have hk : g₄.kind? node = some (.primitive .rampCurve) := hn.kind?_eq
      have hwire := rewired_supply hk (by decide) ha
      refine ⟨rfl, realizes_of_recipes hn.notMem (hn.agree.trans hwire.agree)
        (hwire.mem_nodes (mem_nodes_of_eq_some hn.node_eq)) fun later hlater => ?_⟩
      have hout : later.recipe ⟨node, RampCurve.output⟩ =
          .ok (.compute₁ (remainderCurve epsilon divisor).sample ⟨node, RampCurve.input⟩) := by
        rw [hlater, hwire.recipe_of_ne _ (plug_ne (by decide)),
          hn.recipe_formula (Node.formula?_rampCurve rfl node)]
        rfl
      have hin : later.recipe ⟨node, RampCurve.input⟩ = .ok a.recipe := by
        rw [hlater, hwire.recipe_self]
      rw [number?_of_recipe hout, Recipe.eval?, number?_of_recipe hin, a.eval?_recipe]

/-- The recipes of a clamp of which one bound is fixed: the value and the other bound are
supplied. -/
theorem clamp_recipes {fixed free : String} {x : Float} (hg : g.WellFormed)
    (hfixed : fixed ∈ (NodeKind.primitive .clamp).inputs)
    (hfree : free ∈ (NodeKind.primitive .clamp).inputs) (hne : fixed ≠ free)
    (hfixed' : Clamp.input ≠ fixed) (hfree' : Clamp.input ≠ free)
    (h : (do
        let node ← create (.primitive .clamp)
        supply a ⟨node, Clamp.input⟩
        ask (.setAttribute ⟨node, fixed⟩ (.double x))
        supply b ⟨node, free⟩
        return .plug ⟨node, Clamp.output⟩ : Build Operand).Yields Graph.host names g o names' g') :
    ∃ node, o = .plug ⟨node, Clamp.output⟩ ∧ node ∉ g.nodes ∧ AgreeOn (· ≠ node) g g' ∧
      node ∈ g'.nodes ∧
      g'.recipe ⟨node, Clamp.output⟩ = .ok (.compute₃ clampNumber ⟨node, Clamp.input⟩
        ⟨node, Clamp.min⟩ ⟨node, Clamp.max⟩) ∧
      g'.recipe ⟨node, Clamp.input⟩ = .ok a.recipe ∧
      g'.recipe ⟨node, fixed⟩ = .ok (.stored x) ∧ g'.recipe ⟨node, free⟩ = .ok b.recipe := by
  obtain ⟨node, names₁, g₁, hcreate, h⟩ := yields_bind.1 h
  obtain ⟨⟨⟩, names₂, g₂, ha, h⟩ := yields_bind.1 h
  obtain ⟨⟨⟩, names₃, g₃, hset, h⟩ := yields_bind.1 h
  obtain ⟨⟨⟩, names₄, g₄, hb, h⟩ := yields_bind.1 h
  obtain ⟨rfl, rfl, rfl⟩ := yields_pure.1 h
  have hn := fresh_create hg hcreate
  have hk₁ : g₁.kind? node = some (.primitive .clamp) := hn.kind?_eq
  have hwire₁ := rewired_supply hk₁ (by decide) ha
  have hk₂ := (hwire₁.kind?_eq node).trans hk₁
  have hwire₂ := rewired_supply (a := .constant x) hk₂ hfixed hset
  have hk₃ := (hwire₂.kind?_eq node).trans hk₂
  have hwire₃ := rewired_supply hk₃ hfree hb
  have hout : ∀ attr ∈ (NodeKind.primitive .clamp).inputs, Clamp.output ≠ attr := by decide
  refine ⟨node, rfl, hn.notMem,
    ((hn.agree.trans hwire₁.agree).trans hwire₂.agree).trans hwire₃.agree,
    hwire₃.mem_nodes (hwire₂.mem_nodes (hwire₁.mem_nodes (mem_nodes_of_eq_some hn.node_eq))),
    ?_, ?_, ?_, hwire₃.recipe_self⟩
  · rw [hwire₃.recipe_of_ne _ (plug_ne (hout free hfree)),
      hwire₂.recipe_of_ne _ (plug_ne (hout fixed hfixed)),
      hwire₁.recipe_of_ne _ (plug_ne (by decide)),
      hn.recipe_formula (Node.formula?_clamp rfl node)]
  · rw [hwire₃.recipe_of_ne _ (plug_ne hfree'), hwire₂.recipe_of_ne _ (plug_ne hfixed'),
      hwire₁.recipe_self]
  · rw [hwire₃.recipe_of_ne _ (plug_ne hne), hwire₂.recipe_self, Operand.recipe]

/-- **A bound from above.** The lower bound of the clamp is the least finite number. -/
theorem realizes_boundedAbove (hg : g.WellFormed)
    (h : (boundedAbove a b).Yields Graph.host names g o names' g') :
    o.constant? = none ∧ g.Realizes g' o.number? fun later => do
      let x ← a.number? later
      let y ← b.number? later
      return clampNumber x (-largestFloat) y := by
  obtain ⟨node, rfl, hnew, hagree, hmem, hout, hvalue, hlow, hhigh⟩ :=
    clamp_recipes hg (by decide) (by decide) (by decide) (by decide) (by decide) h
  have hreal := realizes_compute₃ hnew hagree hmem hout hvalue hlow hhigh
  simp only [Operand.eval?_recipe] at hreal
  exact ⟨rfl, hreal⟩

/-- **A bound from below.** The upper bound of the clamp is the greatest finite number. -/
theorem realizes_boundedBelow (hg : g.WellFormed)
    (h : (boundedBelow a b).Yields Graph.host names g o names' g') :
    o.constant? = none ∧ g.Realizes g' o.number? fun later => do
      let x ← a.number? later
      let y ← b.number? later
      return clampNumber x y largestFloat := by
  obtain ⟨node, rfl, hnew, hagree, hmem, hout, hvalue, hhigh, hlow⟩ :=
    clamp_recipes hg (by decide) (by decide) (by decide) (by decide) (by decide) h
  have hreal := realizes_compute₃ hnew hagree hmem hout hvalue hlow hhigh
  simp only [Operand.eval?_recipe] at hreal
  exact ⟨rfl, hreal⟩

/-- **A sine** is the first component of the quaternion of twice the angle. -/
theorem realizes_sine (hg : g.WellFormed)
    (h : (sine a).Yields Graph.host names g o names' g') :
    o.constant? = none ∧ g.Realizes g' o.number? fun later => do
      return quaternionX ((← a.number? later) * 2.0) 0.0 0.0 := by
  obtain ⟨doubler, names₁, g₁, hcreate, h⟩ := yields_bind.1 h
  obtain ⟨⟨⟩, names₂, g₂, ha, h⟩ := yields_bind.1 h
  obtain ⟨⟨⟩, names₃, g₃, hset, h⟩ := yields_bind.1 h
  have hg₃ := hset.wellFormed (ha.wellFormed (hcreate.wellFormed hg))
  obtain ⟨quat, names₄, g₄, hcreate', h⟩ := yields_bind.1 h
  obtain ⟨⟨⟩, names₅, g₅, hconn, h⟩ := yields_bind.1 h
  obtain ⟨rfl, rfl, rfl⟩ := yields_pure.1 h
  -- The first node doubles the angle.
  have hn := fresh_create hg hcreate
  have hk₁ : g₁.kind? doubler = some (.primitive .multDoubleLinear) := hn.kind?_eq
  have hwire₁ := rewired_supply hk₁ (by decide) ha
  have hwire₂ := rewired_setAttribute (p := ⟨doubler, MultDoubleLinear.input2⟩)
    (yields_ask_graph.1 hset).1 rfl ((hwire₁.kind?_eq _).trans hk₁)
    (by simp [NodeKind.inputs])
  have hdouble := realizes_compute₂ hn (Node.formula?_multDoubleLinear rfl doubler) hwire₁ hwire₂
    (by decide) (by decide) (by decide)
  -- The second one follows it, and its other two rotations stay at zero.
  have hn' := fresh_create hg₃ hcreate'
  have hwire := rewired_connect (yields_ask_graph.1 hconn).1
  have hout : g₅.recipe ⟨quat, EulerToQuat.quatX⟩ = .ok (.compute₃ quaternionX
      ⟨quat, EulerToQuat.rotateX⟩ ⟨quat, EulerToQuat.rotateY⟩ ⟨quat, EulerToQuat.rotateZ⟩) := by
    rw [hwire.recipe_of_ne _ (plug_ne (by decide)),
      hn'.recipe_formula (Node.formula?_quatX rfl quat)]
  have hy : g₅.recipe ⟨quat, EulerToQuat.rotateY⟩ = .ok (.stored 0.0) := by
    rw [hwire.recipe_of_ne _ (plug_ne (by decide))]
    exact hn'.recipe_stored (v := .double 0.0) (by decide) (by decide +kernel) rfl
  have hz : g₅.recipe ⟨quat, EulerToQuat.rotateZ⟩ = .ok (.stored 0.0) := by
    rw [hwire.recipe_of_ne _ (plug_ne (by decide))]
    exact hn'.recipe_stored (v := .double 0.0) (by decide) (by decide +kernel) rfl
  have hquat := realizes_compute₃ hn'.notMem (hn'.agree.trans hwire.agree)
    (hwire.mem_nodes (mem_nodes_of_eq_some hn'.node_eq)) hout hwire.recipe_self hy hz
  have hboth := hdouble.comp (f := fun x => do return quaternionX (← x) 0.0 0.0) hquat
  refine ⟨rfl, hboth.congr fun later => ?_⟩
  simp only [a.eval?_recipe]
  simp only [Recipe.eval?, Option.bind_eq_bind, Option.bind_some, Option.pure_def,
    Option.bind_assoc]

end Build

end RigScript
