import RigScript.Proofs.Compile.Assembly
import RigScript.Proofs.Compile.Network
import RigScript.Proofs.Graph.Presence

/-!
# Carrying out blueprints

Held with a scene graph, a blueprint is carried out whenever the plugs that it connects from are
present. A fresh node has the ports of its kind, holds no locks and has no connections, and no port
is fitted twice, so none of the requests is refused. Conversely, a blueprint that was carried out
has connected from plugs that are present.

## Main definitions

* `RigScript.Build.Succeeds`: a construction succeeds, and what holds then
* `RigScript.Graph.Open`: a node that is being fitted
* `RigScript.Blueprint.Sound`: a blueprint that fits the kind of its node
* `RigScript.Blueprint.Supplied`: the plugs that a blueprint connects from are present

## Main results

* `RigScript.Blueprint.Sound.succeeds`: **a sound blueprint that is supplied is carried out**
* `RigScript.Blueprint.supplied_of_yields`: a blueprint that was carried out was supplied
* `RigScript.BinaryOp.blueprint_eq_ok`, `RigScript.Blueprint.sound_clamp` and its neighbours: the
  blueprints of all operations are sound, and they are supplied when their operands are present
-/

namespace RigScript

/-! ### Constructions that succeed -/

namespace Build

variable {α β : Type} {g : Graph} {P Q : α → Graph → Prop}

/-- Held with a scene graph, the construction **succeeds**, whatever nodes are remembered. The graph
grows, and `post` holds of the result and of the graph in the end. -/
def Succeeds (b : Build α) (g : Graph) (post : α → Graph → Prop) : Prop :=
  ∀ names, ∃ a names' g', b.Yields Graph.host names g a names' g' ∧ g.Grows g' ∧ post a g'

namespace Succeeds

theorem pure {a : α} (h : P a g) : (pure a : Build α).Succeeds g P :=
  fun names => ⟨a, names, g, yields_pure.2 ⟨rfl, rfl, rfl⟩, .refl g, h⟩

theorem mono {b : Build α} (hb : b.Succeeds g P) (h : ∀ a g', P a g' → Q a g') :
    b.Succeeds g Q := by
  intro names
  obtain ⟨a, names', g', hyields, hgrows, ha⟩ := hb names
  exact ⟨a, names', g', hyields, hgrows, h a g' ha⟩

/-- Two constructions succeed one after the other. -/
theorem bind {b : Build α} {f : α → Build β} {Q : β → Graph → Prop} (hg : g.WellFormed)
    (hb : b.Succeeds g P)
    (hf : ∀ a g', g'.WellFormed → g.Grows g' → P a g' → (f a).Succeeds g' Q) :
    (b >>= f).Succeeds g Q := by
  intro names
  obtain ⟨a, mid, g₁, hfirst, hgrows, ha⟩ := hb names
  obtain ⟨x, names', g', hrest, hgrows', hx⟩ := hf a g₁ (hfirst.wellFormed hg) hgrows ha mid
  exact ⟨x, names', g', yields_bind.2 ⟨a, mid, g₁, hfirst, hrest⟩, hgrows.trans hgrows', hx⟩

/-- A request that is granted and deletes no node. -/
theorem ask {r : Request} {reply : r.Reply} {g' : Graph} {Q : r.Reply → Graph → Prop}
    (hr : g.perform r = .ok (reply, g')) (hne : ∀ name, r ≠ .deleteNode name) (h : Q reply g') :
    (ask r).Succeeds g Q :=
  fun names => ⟨reply, names, g', yields_ask_graph.2 ⟨hr, rfl⟩, .perform hr hne, h⟩

end Succeeds

/-- A request that was granted and deletes no node lets the graph grow. -/
theorem grows_ask {r : Request} {reply : r.Reply} {names names' : List String} {g' : Graph}
    (h : (ask r).Yields Graph.host names g reply names' g') (hne : ∀ name, r ≠ .deleteNode name) :
    g.Grows g' :=
  .perform (yields_ask_graph.1 h).1 hne

end Build

/-! ### What fits a kind of node -/

/-- The ports that a fresh node of a kind has. -/
def Primitive.ports (kind : Primitive) : List String :=
  (NodeKind.primitive kind).defaultAttributes.map Prod.fst

/-- What may be fitted to a node of a kind: its ports, and the curve of a curve. -/
def Fitting.Fits (kind : Primitive) (f : Fitting) : Prop :=
  match f.port? with
  | some port => port ∈ kind.ports
  | none => kind = .rampCurve

/-- The plug that a fitting connects from, if it does. -/
def Fitting.source? : Fitting → Option Plug
  | attach source _ => some source
  | _ => none

@[simp] theorem Fitting.source?_write (port : String) (v : Value) :
    (write port v).source? = none := rfl

@[simp] theorem Fitting.source?_key (k : Keyframe Float) : (key k).source? = none := rfl

@[simp] theorem Fitting.source?_extend (pre post : Extrapolation) :
    (extend pre post).source? = none := rfl

/-- An operand is **present** when it is a number or a plug that is. -/
def Operand.Present (g : Graph) : Operand → Prop
  | constant _ => True
  | plug p => g.Present p

theorem Operand.Present.grows {g g' : Graph} {a : Operand} (h : a.Present g) (hg : g.Grows g') :
    a.Present g' := by
  cases a with
  | constant x => exact trivial
  | plug p => exact hg.present h

@[simp] theorem Operand.forall_source?_fitting {g : Graph} {port : String} {a : Operand} :
    (∀ p, (a.fitting port).source? = some p → g.Present p) ↔ a.Present g := by
  cases a <;> simp [Operand.fitting, Fitting.source?, Operand.Present]

/-- A blueprint is **sound** when it fits the kind of its node: no port is fitted twice, and what is
fitted is there. -/
structure Blueprint.Sound (b : Blueprint) : Prop where
  nodup : (b.fittings.filterMap Fitting.port?).Nodup
  fits : ∀ f ∈ b.fittings, f.Fits b.kind
  output_mem : b.output ∈ b.kind.ports

/-- A blueprint is **supplied** when the plugs that it connects from are present. -/
def Blueprint.Supplied (g : Graph) (b : Blueprint) : Prop :=
  ∀ f ∈ b.fittings, ∀ p, f.source? = some p → g.Present p

/-! ### Nodes that are being fitted -/

namespace Graph

variable {g g' : Graph} {node : String} {kind : Primitive} {free : String → Prop}

/-- A node is **open** for fittings: it has the ports of its kind, it is not locked, and nothing is
connected to its `free` ports yet. -/
structure Open (g : Graph) (node : String) (kind : Primitive) (free : String → Prop) : Prop where
  node_eq : ∃ n, g.nodes[node]? = some n ∧ n.kind = .primitive kind ∧
    (∀ attr, attr ∉ n.locked) ∧ ∀ port ∈ kind.ports, port ∈ n.attributes
  unwired : ∀ port, free port → g.source? ⟨node, port⟩ = none

namespace Open

theorem mono {free' : String → Prop} (h : g.Open node kind free)
    (hfree : ∀ port, free' port → free port) : g.Open node kind free' :=
  ⟨h.node_eq, fun port hport => h.unwired port (hfree port hport)⟩

/-- The ports of an open node are present. -/
theorem present (h : g.Open node kind free) {port : String} (hport : port ∈ kind.ports) :
    g.Present ⟨node, port⟩ := by
  obtain ⟨n, hn, -, -, hports⟩ := h.node_eq
  exact ⟨n, hn, .inl (hports port hport)⟩

/-- The node is replaced by one that has all its ports and no locks either. -/
theorem putNode (h : g.Open node kind free) {m : Node} (hkind : m.kind = .primitive kind)
    (hlocked : ∀ attr, attr ∉ m.locked) (hports : ∀ port ∈ kind.ports, port ∈ m.attributes)
    (journal : List Change) :
    Open { g with nodes := g.nodes.insert node m, journal } node kind free :=
  ⟨⟨m, Std.ExtTreeMap.getElem?_insert_self, hkind, hlocked, hports⟩, h.unwired⟩

/-- A port is connected, which is not free any more. -/
theorem putConnection (h : g.Open node kind free) (source : Plug) (port : String)
    (journal : List Change) :
    Open { g with connections := g.connections.insert ⟨node, port⟩ source, journal } node kind
      fun port' => free port' ∧ port ≠ port' := by
  refine ⟨h.node_eq, fun port' hfree => ?_⟩
  simp only [Graph.source?, Std.ExtTreeMap.getElem?_insert, Std.LawfulEqOrd.compare_eq_iff_eq,
    Plug.mk.injEq, hfree.2, and_false, if_false]
  exact h.unwired port' hfree.1

/-- A fresh node is open, with all ports free. -/
theorem of_fresh (h : Fresh g g' node (.ofKind (.primitive kind))) :
    g'.Open node kind fun _ => True where
  node_eq := by
    refine ⟨_, h.node_eq, rfl, fun attr => by simp [Node.ofKind], fun port hport => ?_⟩
    rw [Node.ofKind, Std.ExtTreeMap.mem_ofList, List.contains_iff_mem]
    exact hport
  unwired port _ := h.unwired port

end Open

end Graph

/-! ### Carrying out a blueprint -/

namespace Build

variable {g g' : Graph} {node : String} {kind : Primitive} {free : String → Prop}
  {names names' : List String}

/-- **A fitting that fits is made.** -/
theorem succeeds_fit {f : Fitting} (h : g.Open node kind free) (hfits : f.Fits kind)
    (hfree : ∀ port, f.port? = some port → free port)
    (hsource : ∀ p, f.source? = some p → g.Present p) :
    (fit node f).Succeeds g fun _ g' => g'.Open node kind fun port =>
      free port ∧ f.port? ≠ some port := by
  obtain ⟨n, hn, hkind, hlocked, hports⟩ := h.node_eq
  cases f with
  | write port v =>
      have hport : port ∈ kind.ports := hfits
      have hcheck : g.checkAttr ⟨node, port⟩ = .ok n :=
        Graph.checkAttr_eq_ok_iff.2 ⟨hn, .inl (hports port hport)⟩
      refine .ask (Graph.perform_setAttribute.2
        ⟨n, hcheck, hlocked port, h.unwired port (hfree port rfl), rfl⟩) (by simp) ?_
      refine Graph.Open.mono (Graph.Open.putNode h ?_ ?_ ?_ _) fun _ => And.left
      · exact hkind
      · exact hlocked
      · exact fun port' hport' => Std.ExtTreeMap.mem_insert.2 (.inr (hports port' hport'))
  | attach source port =>
      have hport : port ∈ kind.ports := hfits
      have hcheck : g.checkAttr ⟨node, port⟩ = .ok n :=
        Graph.checkAttr_eq_ok_iff.2 ⟨hn, .inl (hports port hport)⟩
      refine .ask (Graph.perform_connect.2 ⟨Graph.present_iff.1 (hsource source rfl),
        ⟨n, hcheck, hlocked port⟩, .inr (h.unwired port (hfree port rfl)), rfl⟩) (by simp) ?_
      refine (h.putConnection source port _).mono fun port' hp => ⟨hp.1, ?_⟩
      rintro rfl
      exact hp.2 rfl
  | key k =>
      obtain rfl : kind = .rampCurve := hfits
      refine .ask (Graph.perform_createKeyframe.2
        ⟨n, Graph.checkCurve_eq_ok_iff.2 ⟨hn, hkind⟩, rfl⟩) (by simp) ?_
      refine Graph.Open.mono (Graph.Open.putNode h ?_ ?_ ?_ _) fun _ => And.left
      exacts [hkind, hlocked, hports]
  | extend pre post =>
      obtain rfl : kind = .rampCurve := hfits
      refine .ask (Graph.perform_setExtrapolation.2
        ⟨n, Graph.checkCurve_eq_ok_iff.2 ⟨hn, hkind⟩, rfl⟩) (by simp) ?_
      refine Graph.Open.mono (Graph.Open.putNode h ?_ ?_ ?_ _) fun _ => And.left
      exacts [hkind, hlocked, hports]

/-- Fittings are made one after the other, as no port is fitted twice. -/
theorem succeeds_fitAll {fs : List Fitting} (hg : g.WellFormed)
    (h : g.Open node kind (· ∈ fs.filterMap Fitting.port?))
    (hnodup : (fs.filterMap Fitting.port?).Nodup) (hfits : ∀ f ∈ fs, f.Fits kind)
    (hsource : ∀ f ∈ fs, ∀ p, f.source? = some p → g.Present p) :
    (fitAll node fs).Succeeds g fun _ g' => g'.Open node kind fun _ => False := by
  induction fs generalizing g with
  | nil => exact .pure (h.mono fun _ hfalse => hfalse.elim)
  | cons f fs ih =>
      simp only [List.forall_mem_cons] at hfits hsource
      have hfirst : (fit node f).Succeeds g fun _ g' => g'.Open node kind fun port =>
          port ∈ (f :: fs).filterMap Fitting.port? ∧ f.port? ≠ some port := by
        refine succeeds_fit h hfits.1 (fun port hport => ?_) hsource.1
        exact List.mem_filterMap.2 ⟨f, by simp, hport⟩
      refine .bind hg hfirst fun _ g₁ hg₁ hgrows hopen => ?_
      refine ih hg₁ (hopen.mono fun port hport => ⟨?_, ?_⟩) ?_ hfits.2
        fun f' hf' p hp => hgrows.present (hsource.2 f' hf' p hp)
      · obtain ⟨f', hf', hport'⟩ := List.mem_filterMap.1 hport
        exact List.mem_filterMap.2 ⟨f', List.mem_cons_of_mem f hf', hport'⟩
      · intro hf
        rw [List.filterMap_cons_some hf] at hnodup
        exact (List.nodup_cons.1 hnodup).1 hport
      · cases hf : f.port? with
        | none => rwa [List.filterMap_cons_none hf] at hnodup
        | some port =>
            rw [List.filterMap_cons_some hf] at hnodup
            exact (List.nodup_cons.1 hnodup).2

/-- Fittings that were made let the graph grow, and what they connected from is present. -/
theorem supplied_of_yields_fitAll {fs : List Fitting}
    (h : (fitAll node fs).Yields Graph.host names g () names' g') :
    g.Grows g' ∧ ∀ f ∈ fs, ∀ p, f.source? = some p → g'.Present p := by
  induction fs generalizing names g with
  | nil =>
      obtain ⟨-, -, rfl⟩ := yields_pure.1 h
      exact ⟨.refl g, by simp⟩
  | cons f fs ih =>
      obtain ⟨⟨⟩, _, g₁, hfit, hrest⟩ := yields_bind.1 h
      obtain ⟨hgrows', hsource'⟩ := ih hrest
      obtain ⟨hgrows, hsource⟩ : g.Grows g₁ ∧ ∀ p, f.source? = some p → g₁.Present p := by
        cases f with
        | attach source port =>
            refine ⟨grows_ask hfit (by simp), ?_⟩
            rintro p ⟨⟩
            obtain ⟨hm, -⟩ := Graph.perform_connect.1 (yields_ask_graph.1 hfit).1
            exact (grows_ask hfit (by simp)).present (Graph.present_iff.2 hm)
        | write port v => exact ⟨grows_ask hfit (by simp), by rintro p ⟨⟩⟩
        | key k => exact ⟨grows_ask hfit (by simp), by rintro p ⟨⟩⟩
        | extend pre post => exact ⟨grows_ask hfit (by simp), by rintro p ⟨⟩⟩
      refine ⟨hgrows.trans hgrows', List.forall_mem_cons.2 ⟨?_, hsource'⟩⟩
      exact fun p hp => hgrows'.present (hsource p hp)

end Build

namespace Blueprint

open RigScript.Build

variable {g g' : Graph} {a b o : Operand} {names names' : List String}

/-- **A sound blueprint that is supplied is carried out**, and its result is a plug that is
present. -/
theorem Sound.succeeds {b : Blueprint} (hb : b.Sound) (hg : g.WellFormed) (hs : b.Supplied g) :
    b.build.Succeeds g fun o g' => o.constant? = none ∧ o.Present g' := by
  have hcreate : (create (.primitive b.kind)).Succeeds g fun node g' =>
      g'.Open node b.kind fun _ => True := by
    intro names
    obtain ⟨node, g₁, hperform⟩ : ∃ node g₁,
        g.perform (.createNode (.primitive b.kind)) = .ok (node, g₁) :=
      ⟨_, _, Graph.perform_createNode.2 ⟨rfl, rfl⟩⟩
    have hyields : (create (.primitive b.kind)).Yields Graph.host names g _ _ _ :=
      yields_create.2 ⟨Graph.host_respond_eq_ok.2 hperform, rfl⟩
    exact ⟨_, _, _, hyields, .perform hperform (by simp), .of_fresh (fresh_create hg hyields)⟩
  refine .bind hg hcreate fun node g₁ hg₁ hgrows hopen => ?_
  refine .bind hg₁ (succeeds_fitAll hg₁ (hopen.mono fun _ _ => trivial) hb.nodup hb.fits
    fun f hf p hp => hgrows.present (hs f hf p hp)) fun _ g₂ _ _ hfitted => ?_
  exact .pure ⟨rfl, hfitted.present hb.output_mem⟩

/-- **A blueprint that was carried out was supplied**, and it let the graph grow. -/
theorem supplied_of_yields {b : Blueprint} (h : b.build.Yields Graph.host names g o names' g') :
    g.Grows g' ∧ b.Supplied g' ∧ o.constant? = none := by
  obtain ⟨node, _, g₁, hcreate, h⟩ := yields_bind.1 h
  obtain ⟨⟨⟩, _, g₂, hfit, h⟩ := yields_bind.1 h
  obtain ⟨rfl, -, rfl⟩ := yields_pure.1 h
  obtain ⟨hr, -⟩ := yields_create.1 hcreate
  have hgrows : g.Grows g₁ := .perform (Graph.host_respond_eq_ok.1 hr) (by simp)
  obtain ⟨hgrows', hsupplied⟩ := supplied_of_yields_fitAll hfit
  exact ⟨hgrows.trans hgrows', hsupplied, rfl⟩

/-! ### The blueprints of operations -/

theorem sound_multiplyDivide (a b : Operand) (divide : Bool) :
    (multiplyDivide a b divide).Sound := by
  cases divide <;> constructor <;>
    simp [multiplyDivide, Fitting.Fits] <;> decide

theorem supplied_multiplyDivide {divide : Bool} :
    (multiplyDivide a b divide).Supplied g ↔ a.Present g ∧ b.Present g := by
  cases divide <;> simp [Supplied, multiplyDivide]

theorem sound_plusMinus (a b : Operand) (subtract : Bool) : (plusMinus a b subtract).Sound := by
  constructor <;> simp [plusMinus, Fitting.Fits] <;> decide

theorem supplied_plusMinus {subtract : Bool} :
    (plusMinus a b subtract).Supplied g ↔ a.Present g ∧ b.Present g := by
  simp [Supplied, plusMinus]

theorem sound_modulo (epsilon : Float) (a : Operand) (divisor : Float) :
    (modulo epsilon a divisor).Sound := by
  constructor <;> simp [modulo, Fitting.Fits, List.filterMap_cons] <;> decide

theorem supplied_modulo {epsilon divisor : Float} :
    (modulo epsilon a divisor).Supplied g ↔ a.Present g := by
  simp [Supplied, modulo]

theorem sound_clamp {free fixed : String} (value bound : Operand) (limit : Float)
    (hports : [Clamp.input, fixed, free].Perm [Clamp.input, Clamp.min, Clamp.max]) :
    (clamp value bound free fixed limit).Sound := by
  have hmem : ∀ port ∈ [Clamp.input, fixed, free], port ∈ Primitive.clamp.ports := by
    intro port hport
    have hall : ∀ port ∈ [Clamp.input, Clamp.min, Clamp.max], port ∈ Primitive.clamp.ports := by
      decide
    exact hall port (hports.mem_iff.1 hport)
  refine ⟨?_, ?_, ?_⟩
  · have hnodup : [Clamp.input, fixed, free].Nodup := hports.nodup_iff.2 (by decide)
    simpa [clamp, List.filterMap_cons] using hnodup
  · simpa [clamp, Fitting.Fits] using hmem
  · exact List.mem_map_of_mem (f := Prod.fst) (a := (Clamp.output, .double 0.0))
      (by simp [clamp, NodeKind.defaultAttributes])

theorem supplied_clamp {value bound : Operand} {free fixed : String} {limit : Float} :
    (clamp value bound free fixed limit).Supplied g ↔ value.Present g ∧ bound.Present g := by
  simp [Supplied, clamp]

theorem sound_doubler (angle : Operand) : (doubler angle).Sound := by
  constructor <;> simp [doubler, Fitting.Fits] <;> decide

theorem supplied_doubler : (doubler a).Supplied g ↔ a.Present g := by
  simp [Supplied, doubler]

theorem sound_quaternion (angle : Operand) : (quaternion angle).Sound := by
  constructor <;> simp [quaternion, Fitting.Fits] <;> decide

theorem supplied_quaternion : (quaternion a).Supplied g ↔ a.Present g := by
  simp [Supplied, quaternion]

end Blueprint

/-- An operation that can be built, given the number that its right operand folds to: comparisons
cannot, and a remainder only by a number that is greater than `epsilon`. -/
def BinaryOp.Supported (epsilon : Float) (divisor? : Option Float) : BinaryOp → Prop
  | equal => False
  | unequal => False
  | modulo => ∃ d, divisor? = some d ∧ d.isNaN = false ∧ ¬ d ≤ epsilon
  | _ => True

namespace BinaryOp

variable {epsilon : Float} {a b : Operand} {op : BinaryOp}

/-- **An operation that can be built has a blueprint.** -/
theorem exists_blueprint_iff :
    (∃ plan, op.blueprint epsilon a b = .ok plan) ↔ op.Supported epsilon b.constant? := by
  cases op with
  | modulo =>
      cases b with
      | plug p => simp [blueprint, Supported, Operand.constant?]
      | constant divisor =>
          simp only [blueprint, Supported, Operand.constant?, Option.some.injEq, exists_eq_left']
          split
          · next hbad =>
            have hbad' : divisor.isNaN = true ∨ divisor ≤ epsilon := by simpa using hbad
            simp only [reduceCtorEq, exists_false, false_iff, not_and, not_not]
            exact fun hnan => hbad'.resolve_left (hnan ▸ Bool.false_ne_true)
          · next hgood => simpa using hgood
  | _ => simp [blueprint, Supported]

/-- The blueprint of an operation is sound, and it is supplied when both operands are present. -/
theorem blueprint_eq_ok {plan : Blueprint} (h : op.blueprint epsilon a b = .ok plan) :
    plan.Sound ∧ ∀ g, plan.Supplied g ↔ a.Present g ∧ b.Present g := by
  cases op with
  | add =>
      obtain rfl := Except.ok.inj h
      exact ⟨Blueprint.sound_plusMinus .., fun g => Blueprint.supplied_plusMinus⟩
  | subtract =>
      obtain rfl := Except.ok.inj h
      exact ⟨Blueprint.sound_plusMinus .., fun g => Blueprint.supplied_plusMinus⟩
  | multiply =>
      obtain rfl := Except.ok.inj h
      exact ⟨Blueprint.sound_multiplyDivide .., fun g => Blueprint.supplied_multiplyDivide⟩
  | divide =>
      obtain rfl := Except.ok.inj h
      exact ⟨Blueprint.sound_multiplyDivide .., fun g => Blueprint.supplied_multiplyDivide⟩
  | modulo =>
      cases b with
      | plug p => cases h
      | constant divisor =>
          simp only [blueprint] at h
          split at h
          · cases h
          · obtain rfl := Except.ok.inj h
            refine ⟨Blueprint.sound_modulo .., fun g => ?_⟩
            simp [Blueprint.supplied_modulo, Operand.Present]
  | equal => cases h
  | unequal => cases h

end BinaryOp

end RigScript
