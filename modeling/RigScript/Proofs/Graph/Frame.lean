import RigScript.Proofs.Graph.Dataflow
import RigScript.Proofs.Graph.Reachable

/-!
# What a request leaves alone

The value of a plug is settled by recipes, and the recipe of a plug by its node and by the
connection that ends in it. So two graphs that agree on a node, in what it stores and in what is
connected to it, have the same recipes there. Each request touches one node; where it touches a
single plug, only the recipe of that plug changes.

## Main definitions

* `RigScript.Graph.AgreeOn`: two graphs agree on some of the nodes
* `RigScript.Graph.Extends`: a graph with more nodes and the old ones untouched
* `RigScript.Graph.number?`: the value of a plug, if it has one
* `RigScript.Graph.IsOutput`: whether a plug is an output of a computing node
* `RigScript.Graph.Rewired`: one plug has a new recipe and nothing else has

## Main results

* `RigScript.Graph.number?_of_recipe`: the value of a plug is what its recipe makes of the values
  of its needs
* `RigScript.Graph.AgreeOn.recipe_eq`: graphs that agree on a node have the same recipes there
* `RigScript.Graph.recipe_setAttribute_of_ne`, `RigScript.Graph.rewired_connect`: what writing and
  connecting do to recipes
-/

namespace RigScript

/-! ### Values as a function -/

/-- What a recipe makes of the values of its needs. -/
def Recipe.eval? (val : Plug → Option Float) : Recipe → Option Float
  | stored x => some x
  | follow source => val source
  | compute₁ f a => do return f (← val a)
  | compute₂ f a b => do return f (← val a) (← val b)
  | compute₃ f a b c => do return f (← val a) (← val b) (← val c)

namespace Graph

variable {g g' g'' : Graph} {p q : Plug}

/-- The value of a plug, if it has one. -/
def number? (g : Graph) (p : Plug) : Option Float :=
  (g.evaluate p).toOption

theorem number?_eq_some_iff {x : Float} : g.number? p = some x ↔ g.evaluate p = .ok x :=
  toOption_eq_some_iff

/-- **The recipe rule.** The value of a plug is what its recipe makes of the values of its needs,
and it is missing exactly when one of those is. -/
theorem number?_of_recipe {r : Recipe} (h : g.recipe p = .ok r) :
    g.number? p = r.eval? g.number? := by
  ext x
  have hdenotes : r.Denotes g.HasValue x ↔ r.eval? g.number? = some x := by
    have hval : ∀ q y, g.HasValue q y ↔ g.number? q = some y := fun q y =>
      evaluate_eq_ok_iff.symm.trans number?_eq_some_iff.symm
    cases r <;> simp [Recipe.Denotes, Recipe.eval?, hval, Option.bind_eq_some_iff]
  rw [number?_eq_some_iff, evaluate_eq_ok_iff, hasValue_iff, ← hdenotes, h]
  simp

/-! ### Outputs -/

/-- Whether a plug is an output of a computing node. -/
def IsOutput (g : Graph) (p : Plug) : Prop :=
  ∃ k, g.kind? p.node = some k ∧ p.attr ∈ k.outputs

/-- Graphs with the same kinds have the same outputs. -/
theorem isOutput_congr (h : g'.kind? p.node = g.kind? p.node) : g'.IsOutput p ↔ g.IsOutput p := by
  rw [IsOutput, IsOutput, h]

/-- A node is there exactly when it has a kind. -/
theorem mem_nodes_iff_isSome_kind? {name : String} : name ∈ g.nodes ↔ (g.kind? name).isSome := by
  rw [kind?, Option.isSome_map, Std.ExtTreeMap.mem_iff_isSome_getElem?]

/-! ### Agreement -/

/-- Two graphs **agree on** the nodes that `P` picks: they store the same there, and the same is
connected to them. -/
def AgreeOn (P : String → Prop) (g g' : Graph) : Prop :=
  ∀ name, P name → g'.nodes[name]? = g.nodes[name]? ∧
    ∀ attr, g'.source? ⟨name, attr⟩ = g.source? ⟨name, attr⟩

/-- A graph **extends** another when all nodes of that one are untouched. -/
def Extends (g g' : Graph) : Prop :=
  AgreeOn (· ∈ g.nodes) g g'

namespace AgreeOn

variable {P Q : String → Prop}

theorem refl (P : String → Prop) (g : Graph) : AgreeOn P g g :=
  fun _ _ => ⟨rfl, fun _ => rfl⟩

theorem trans (h : AgreeOn P g g') (h' : AgreeOn P g' g'') : AgreeOn P g g'' := fun name hname =>
  ⟨(h' name hname).1.trans (h name hname).1,
    fun attr => ((h' name hname).2 attr).trans ((h name hname).2 attr)⟩

theorem mono (h : AgreeOn P g g') (hPQ : ∀ name, Q name → P name) : AgreeOn Q g g' :=
  fun name hname => h name (hPQ name hname)

/-- Graphs that agree on a node have the same recipes there. -/
theorem recipe_eq (h : AgreeOn P g g') (hp : P p.node) : g'.recipe p = g.recipe p := by
  obtain ⟨hnode, hsource⟩ := h p.node hp
  have hconn : g'.connections[p]? = g.connections[p]? := hsource p.attr
  unfold recipe node
  rw [hconn, hnode]

/-- Graphs that agree on a node agree on its kind. -/
theorem kind?_eq (h : AgreeOn P g g') {name : String} (hname : P name) :
    g'.kind? name = g.kind? name := by
  rw [kind?, kind?, (h name hname).1]

/-- Graphs that agree on a node both have it or both lack it. -/
theorem mem_nodes_iff (h : AgreeOn P g g') {name : String} (hname : P name) :
    name ∈ g'.nodes ↔ name ∈ g.nodes := by
  rw [Std.ExtTreeMap.mem_iff_isSome_getElem?, Std.ExtTreeMap.mem_iff_isSome_getElem?,
    (h name hname).1]

end AgreeOn

namespace Extends

theorem mem_nodes (h : g.Extends g') {name : String} (hname : name ∈ g.nodes) :
    name ∈ g'.nodes :=
  (h.mem_nodes_iff hname).2 hname

theorem trans (h : g.Extends g') (h' : g'.Extends g'') : g.Extends g'' :=
  AgreeOn.trans h (h'.mono fun _ hname => h.mem_nodes hname)

end Extends

/-! ### The three ways of changing a graph -/

/-- Putting a node under a name touches no other node. -/
theorem agreeOn_putNode (g : Graph) (name : String) (n : Node) (journal : List Change) :
    AgreeOn (· ≠ name) g { g with nodes := g.nodes.insert name n, journal } := by
  intro m hm
  refine ⟨?_, fun _ => rfl⟩
  rw [Std.ExtTreeMap.getElem?_insert, if_neg]
  rw [Std.LawfulEqOrd.compare_eq_iff_eq]
  exact hm.symm

/-- Connecting to a plug touches no other node. -/
theorem agreeOn_putConnection (g : Graph) (source dest : Plug) (journal : List Change) :
    AgreeOn (· ≠ dest.node) g
      { g with connections := g.connections.insert dest source, journal } := by
  intro m hm
  refine ⟨rfl, fun attr => ?_⟩
  simp only [source?]
  rw [Std.ExtTreeMap.getElem?_insert, if_neg]
  rw [Std.LawfulEqOrd.compare_eq_iff_eq]
  rintro rfl
  exact hm rfl

/-- Removing a connection touches no other node. -/
theorem agreeOn_eraseConnection (g : Graph) (dest : Plug) (journal : List Change) :
    AgreeOn (· ≠ dest.node) g { g with connections := g.connections.erase dest, journal } := by
  intro m hm
  refine ⟨rfl, fun attr => ?_⟩
  simp only [source?]
  rw [Std.ExtTreeMap.getElem?_erase, if_neg]
  rw [Std.LawfulEqOrd.compare_eq_iff_eq]
  rintro rfl
  exact hm rfl

/-! ### What requests do to recipes -/

/-- The kinds of a graph in which a node was replaced by one of its own kind. -/
theorem kind?_putNode {name : String} {n m : Node} (hn : g.nodes[name]? = some n)
    (hk : m.kind = n.kind) (journal : List Change) (name' : String) :
    kind? { g with nodes := g.nodes.insert name m, journal } name' = g.kind? name' := by
  by_cases h : name' = name
  · subst h
    simp [kind?, hn, hk]
  · exact (agreeOn_putNode g name m journal).kind?_eq h

/-- A node may be replaced without an effect on the recipe of one of its plugs, as long as the
formula and the stored value of the plug stay. -/
theorem recipe_putNode {n m : Node} (hn : g.nodes[p.node]? = some n)
    (hf : m.formula? p = n.formula? p) (hv : m.attributes[p.attr]? = n.attributes[p.attr]?)
    (journal : List Change) :
    recipe { g with nodes := g.nodes.insert p.node m, journal } p = g.recipe p := by
  simp only [recipe, node, Std.ExtTreeMap.getElem?_insert_self, hn, bind, Except.bind, hf, hv]

end Graph

/-- Inputs are not outputs. -/
theorem NodeKind.notMem_outputs_of_mem_inputs {k : NodeKind} {attr : String}
    (h : attr ∈ k.inputs) : attr ∉ k.outputs := by
  have hdisjoint : ∀ a ∈ k.inputs, a ∉ k.outputs := by
    rcases k with prim | t
    · cases prim <;> decide
    · simp [NodeKind.inputs]
  exact hdisjoint attr h

/-- No input selects a formula. -/
theorem NodeKind.ne_operation_of_mem_inputs {k : NodeKind} {attr : String}
    (h : attr ∈ k.inputs) : attr ≠ MultiplyDivide.operation := by
  have hnone : ∀ a ∈ k.inputs, a ≠ MultiplyDivide.operation := by
    rcases k with prim | t
    · cases prim <;> decide
    · simp [NodeKind.inputs]
  exact hnone attr h

/-- Writing to an input of a computing node leaves its formulas alone, and writing to any plug
leaves alone those that are not outputs. -/
theorem Node.formula?_insert {n : Node} {attr : String} {v : Value} {q : Plug}
    (h : attr ∈ n.kind.inputs ∨ q.attr ∉ n.kind.outputs) :
    Node.formula? { n with attributes := n.attributes.insert attr v } q = n.formula? q := by
  obtain hin | hout := h
  · obtain ⟨kind, attributes, locked, curve⟩ := n
    have hop : (Node.mk kind (attributes.insert attr v) locked curve).selectsSecond
          MultiplyDivide.operation =
        (Node.mk kind attributes locked curve).selectsSecond MultiplyDivide.operation := by
      simp only [selectsSecond, Std.ExtTreeMap.getElem?_insert,
        Std.LawfulEqOrd.compare_eq_iff_eq, if_neg (NodeKind.ne_operation_of_mem_inputs hin)]
    -- Only a product and a sum look at a stored attribute, and it has the same name on both.
    rcases kind with prim | t
    · cases prim with
      | multiplyDivide => simp only [formula?, hop]
      | plusMinusAverage => simp only [formula?, show PlusMinusAverage.operation =
          MultiplyDivide.operation from rfl, hop]
      | _ => rfl
    · rfl
  · rw [formula?_eq_none_iff.2 hout]
    exact formula?_eq_none_iff.2 hout

namespace Graph

variable {g g' g'' : Graph} {p q : Plug}

/-- Writing to a plug leaves the recipes of the others alone, save that of an output which the
written plug selects the formula of. -/
theorem recipe_setAttribute_of_ne {v : Value}
    (h : g.perform (.setAttribute p v) = .ok ((), g')) (hne : q ≠ p)
    (hq : ∀ k, g.kind? p.node = some k → p.attr ∈ k.inputs ∨ q.attr ∉ k.outputs) :
    g'.recipe q = g.recipe q := by
  obtain ⟨n, hn, -, -, rfl⟩ := perform_setAttribute.1 h
  obtain ⟨hnode, -⟩ := checkAttr_eq_ok_iff.1 hn
  by_cases hsame : q.node = p.node
  · have hattr : p.attr ≠ q.attr := by
      intro hattr
      apply hne
      cases p
      cases q
      simp_all
    rw [← hsame] at hnode ⊢
    refine recipe_putNode hnode (Node.formula?_insert (hq n.kind ?_)) ?_ _
    · rw [kind?, ← hsame, hnode]
      rfl
    · simp [Std.ExtTreeMap.getElem?_insert, hattr]
  · exact (agreeOn_putNode g p.node _ _).recipe_eq hsame

/-- A number written to a plug is its recipe, unless the plug is an output. -/
theorem recipe_setAttribute_self {v : Value} {x : Float}
    (h : g.perform (.setAttribute p v) = .ok ((), g')) (hx : v.toFloat? = some x)
    (hp : ∀ k, g.kind? p.node = some k → p.attr ∉ k.outputs) :
    g'.recipe p = .ok (.stored x) := by
  obtain ⟨n, hn, -, hs, rfl⟩ := perform_setAttribute.1 h
  obtain ⟨hnode, -⟩ := checkAttr_eq_ok_iff.1 hn
  have hstored : (v.storedOver n.attributes[p.attr]?).toFloat? = some x := by
    rw [← hx]
    unfold Value.storedOver
    split <;> rfl
  refine recipe_of_stored hs Std.ExtTreeMap.getElem?_insert_self ?_
    Std.ExtTreeMap.getElem?_insert_self hstored
  exact hp n.kind (by rw [kind?, hnode]; rfl)

/-- Writing touches one node and no kind. -/
theorem agreeOn_setAttribute {v : Value} (h : g.perform (.setAttribute p v) = .ok ((), g')) :
    AgreeOn (· ≠ p.node) g g' ∧ ∀ name, g'.kind? name = g.kind? name := by
  obtain ⟨n, hn, -, -, rfl⟩ := perform_setAttribute.1 h
  obtain ⟨hnode, -⟩ := checkAttr_eq_ok_iff.1 hn
  refine ⟨agreeOn_putNode g p.node _ _, fun name => ?_⟩
  exact kind?_putNode hnode (by rfl) _ name

/-- The plug `p` is **rewired**: it has the recipe `r`, no other recipe has changed, no other node
is touched, and the kinds are the same. -/
structure Rewired (g g' : Graph) (p : Plug) (r : Recipe) : Prop where
  agree : AgreeOn (· ≠ p.node) g g'
  kind?_eq : ∀ name, g'.kind? name = g.kind? name
  recipe_self : g'.recipe p = .ok r
  recipe_of_ne : ∀ q, q ≠ p → g'.recipe q = g.recipe q

/-- A number written to an input of a computing node rewires it. -/
theorem rewired_setAttribute {v : Value} {x : Float} {k : NodeKind}
    (h : g.perform (.setAttribute p v) = .ok ((), g')) (hx : v.toFloat? = some x)
    (hk : g.kind? p.node = some k) (hp : p.attr ∈ k.inputs) : g.Rewired g' p (.stored x) where
  agree := (agreeOn_setAttribute h).1
  kind?_eq := (agreeOn_setAttribute h).2
  recipe_self := recipe_setAttribute_self h hx fun k' hk' => by
    obtain rfl : k = k' := by simpa [hk] using hk'
    exact NodeKind.notMem_outputs_of_mem_inputs hp
  recipe_of_ne q hne := recipe_setAttribute_of_ne h hne fun k' hk' => by
    obtain rfl : k = k' := by simpa [hk] using hk'
    exact .inl hp

/-- Connecting to a plug rewires it, whatever it is. -/
theorem rewired_connect {source : Plug} {force : Bool}
    (h : g.perform (.connect source p force) = .ok ((), g')) : g.Rewired g' p (.follow source) := by
  obtain ⟨-, -, -, rfl⟩ := perform_connect.1 h
  refine ⟨agreeOn_putConnection g source p _, fun _ => rfl, ?_, ?_⟩
  · exact recipe_of_source Std.ExtTreeMap.getElem?_insert_self
  · intro q hne
    have hcmp : ¬ compare p q = .eq := by
      rw [Std.LawfulEqOrd.compare_eq_iff_eq]
      exact hne.symm
    simp only [recipe, Std.ExtTreeMap.getElem?_insert, if_neg hcmp, node]

end Graph

end RigScript
