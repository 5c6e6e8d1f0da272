import RigScript.Proofs.Compile.Compilable

/-!
# Dependency cycles

A sentence builds a network for its expression and makes the target depend on it. The network hangs
together downwards: from each of its plugs one comes, step by step, to the plugs that the expression
reads, and the operand that stands for the expression reaches all of these. So a cycle can only
close through the target, and it does exactly when the expression reads a plug from which the target
was reachable before.

The induction over expressions carries `Graph.Circuit`, which says this about every later graph that
keeps the new nodes. Circuits are put side by side and on top of each other like the constructions
that make them.

## Main definitions

* `RigScript.Graph.RestsOn`: going down from a plug, one comes to given ones
* `RigScript.Graph.Circuit`: the nodes built between two graphs connect operands with what they read
* `RigScript.Graph.CycleFree`: no cycle is reachable from a plug
* `RigScript.Blueprint.Joins`: the operands that the node of a blueprint depends on

## Main results

* `RigScript.Build.circuit_lower`: a lowered expression is a circuit that reads its paths
* `RigScript.Graph.Redirected.cycle_iff`: when redirecting a plug closes a cycle
* `RigScript.sentence_cycle_iff`: **a sentence closes a cycle exactly when it has to**
-/

namespace RigScript

open Relation

namespace Graph

variable {g g' g₁ g₂ later : Graph} {p q r : Plug}

/-! ### Dependency and the kind of a node -/

/-- What a plug depends on, given the kind of its node. -/
theorem dependsOn_iff_of_kind? {k : NodeKind} (hk : g.kind? p.node = some k) :
    g.DependsOn p q ↔ g.source? p = some q ∨
      (g.source? p = none ∧ p.attr ∈ k.outputs ∧ q.node = p.node ∧ q.attr ∈ k.inputs) := by
  obtain ⟨n, hn, rfl⟩ := Option.map_eq_some_iff.1 hk
  constructor
  · rintro (⟨hs⟩ | ⟨hs, hn', hout, hin⟩)
    · exact .inl hs
    · obtain rfl := Option.some.inj (hn'.symm.trans hn)
      exact .inr ⟨hs, hout, rfl, hin⟩
  · rintro (hs | ⟨hs, hout, hnode, hin⟩)
    · exact .source hs
    · have hstep := DependsOn.input hs hn hout hin
      rwa [← hnode] at hstep

/-- A plug depends on the same when its source and the kind of its node are the same. -/
theorem dependsOn_congr (hsource : g'.source? p = g.source? p)
    (hkind : g'.kind? p.node = g.kind? p.node) : g'.DependsOn p q ↔ g.DependsOn p q := by
  cases hk : g.kind? p.node with
  | some k =>
      rw [dependsOn_iff_of_kind? hk, dependsOn_iff_of_kind? (hkind.trans hk), hsource]
  | none =>
      -- Without a node, only a connection makes a plug depend on another.
      have hnone : ∀ {h : Graph}, h.kind? p.node = none →
          (h.DependsOn p q ↔ h.source? p = some q) := by
        intro h hh
        refine ⟨?_, .source⟩
        rintro (⟨hs⟩ | ⟨-, hn, -, -⟩)
        · exact hs
        · rw [kind?, hn] at hh
          cases hh
      rw [hnone hk, hnone (hkind.trans hk), hsource]

namespace WellFormed

/-- What a plug depends on is on a node that is there. -/
theorem mem_of_dependsOn (hg : g.WellFormed) (h : g.DependsOn p q) :
    p.node ∈ g.nodes ∧ q.node ∈ g.nodes := by
  rcases h with ⟨hs⟩ | ⟨-, hn, -, -⟩
  · exact ⟨hg.dest_mem _ _ hs, hg.source_mem _ _ hs⟩
  · exact ⟨mem_nodes_of_eq_some hn, mem_nodes_of_eq_some hn⟩

end WellFormed

/-! ### Circuits -/

/-- The plug `q` **rests on** the plugs that `leaves` picks: however one goes down from it, one
comes to a leaf or to an end. -/
inductive RestsOn (g : Graph) (leaves : Plug → Prop) : Plug → Prop
  | leaf {q : Plug} : leaves q → RestsOn g leaves q
  | step {q : Plug} : (∀ r, g.DependsOn q r → RestsOn g leaves r) → RestsOn g leaves q

/-- What rests on plugs that rest on others rests on these. -/
theorem RestsOn.trans {leaves leaves' : Plug → Prop} (h : g.RestsOn leaves q)
    (hleaves : ∀ v, leaves v → g.RestsOn leaves' v) : g.RestsOn leaves' q := by
  induction h with
  | leaf hq => exact hleaves _ hq
  | step _ ih => exact .step ih

theorem RestsOn.mono {leaves leaves' : Plug → Prop} (h : g.RestsOn leaves q)
    (hleaves : ∀ v, leaves v → leaves' v) : g.RestsOn leaves' q :=
  h.trans fun v hv => .leaf (hleaves v hv)

/-- The nodes built between `g` and `g₁` form a **circuit** below the operands `tops`: the old nodes
are untouched, and in every later graph that keeps the new ones, the new plugs and the operands rest
on the leaves, and each leaf is reached from an operand. -/
structure Circuit (g g₁ : Graph) (leaves : Plug → Prop) (tops : List Operand) : Prop where
  grown : g.Extends g₁
  rests : ∀ later, KeepsBuilt g g₁ later → ∀ q : Plug,
    (q.node ∈ g₁.nodes ∧ q.node ∉ g.nodes) ∨ .plug q ∈ tops → later.RestsOn leaves q
  reads : ∀ later, KeepsBuilt g g₁ later → ∀ v, leaves v →
    ∃ p, .plug p ∈ tops ∧ ReflTransGen later.DependsOn p v

namespace Circuit

variable {leaves leaves' : Plug → Prop} {tops tops' : List Operand}

/-- Operands alone are a circuit. -/
theorem refl (g : Graph) (tops : List Operand) : g.Circuit g (fun v => .plug v ∈ tops) tops where
  grown := .refl _ g
  rests := by
    rintro later - q (⟨hmem, hnew⟩ | hq)
    · exact absurd hmem hnew
    · exact .leaf hq
  reads _ _ v hv := ⟨v, hv, .refl⟩

theorem congr (h : g.Circuit g₁ leaves tops) (hleaves : ∀ v, leaves v ↔ leaves' v) :
    g.Circuit g₁ leaves' tops where
  grown := h.grown
  rests later hlater q hq := (h.rests later hlater q hq).mono fun v => (hleaves v).1
  reads later hlater v hv := h.reads later hlater v ((hleaves v).2 hv)

/-- Circuits **side by side**. -/
theorem append (h : g.Circuit g₁ leaves tops) (h₂ : g₁.Circuit g₂ leaves' tops') :
    g.Circuit g₂ (fun v => leaves v ∨ leaves' v) (tops ++ tops') where
  grown := h.grown.trans h₂.grown
  rests := by
    intro later hlater q hq
    have hfirst := h.rests later (hlater.first h₂.grown) q
    have hsecond := h₂.rests later (hlater.second h.grown) q
    rw [List.mem_append] at hq
    rcases hq with ⟨hmem, hnew⟩ | hq | hq
    · by_cases hmem₁ : q.node ∈ g₁.nodes
      · exact (hfirst (.inl ⟨hmem₁, hnew⟩)).mono fun _ => .inl
      · exact (hsecond (.inl ⟨hmem, hmem₁⟩)).mono fun _ => .inr
    · exact (hfirst (.inr hq)).mono fun _ => .inl
    · exact (hsecond (.inr hq)).mono fun _ => .inr
  reads := by
    rintro later hlater v (hv | hv)
    · obtain ⟨p, hp, hreach⟩ := h.reads later (hlater.first h₂.grown) v hv
      exact ⟨p, List.mem_append_left _ hp, hreach⟩
    · obtain ⟨p, hp, hreach⟩ := h₂.reads later (hlater.second h.grown) v hv
      exact ⟨p, List.mem_append_right _ hp, hreach⟩

/-- A circuit **on top of** another one, whose operands it reads. -/
theorem comp (h : g.Circuit g₁ leaves tops)
    (h₂ : g₁.Circuit g₂ (fun v => .plug v ∈ tops) tops') : g.Circuit g₂ leaves tops' where
  grown := h.grown.trans h₂.grown
  rests := by
    intro later hlater q hq
    have hfirst := h.rests later (hlater.first h₂.grown)
    have hsecond : later.RestsOn (fun v => .plug v ∈ tops) q → later.RestsOn leaves q :=
      fun hrest => hrest.trans fun v hv => hfirst v (.inr hv)
    rcases hq with ⟨hmem, hnew⟩ | hq
    · by_cases hmem₁ : q.node ∈ g₁.nodes
      · exact hfirst q (.inl ⟨hmem₁, hnew⟩)
      · exact hsecond (h₂.rests later (hlater.second h.grown) q (.inl ⟨hmem, hmem₁⟩))
    · exact hsecond (h₂.rests later (hlater.second h.grown) q (.inr hq))
  reads := by
    intro later hlater v hv
    obtain ⟨p, hp, hreach⟩ := h.reads later (hlater.first h₂.grown) v hv
    obtain ⟨o, ho, htop⟩ := h₂.reads later (hlater.second h.grown) p hp
    exact ⟨o, ho, htop.trans hreach⟩

end Circuit

/-- A node **has been fitted**: only it is touched, kinds are kept, and what was attached is
connected to it. -/
structure Fitted (g g' : Graph) (node : String) (fs : List Fitting) : Prop where
  agree : AgreeOn (· ≠ node) g g'
  kind?_eq : ∀ name, g'.kind? name = g.kind? name
  source?_eq_some_iff : ∀ port v, g'.source? ⟨node, port⟩ = some v ↔
    g.source? ⟨node, port⟩ = some v ∨ .attach v port ∈ fs

/-- A fitting that changes what the node stores, but none of its connections. -/
theorem fitted_putNode {node : String} {n m : Node} {f : Fitting} (hn : g.nodes[node]? = some n)
    (hkind : m.kind = n.kind) (hf : f.source? = none) (journal : List Change) :
    g.Fitted { g with nodes := g.nodes.insert node m, journal } node [f] := by
  refine ⟨agreeOn_putNode g node m journal, kind?_putNode hn hkind journal, fun port v => ?_⟩
  have hne : .attach v port ∉ [f] := by
    rintro hmem
    rw [List.mem_singleton.1 hmem |>.symm] at hf
    cases hf
  exact (or_iff_left hne).symm

end Graph

/-! ### Blueprints as circuits -/

/-- An operand is attached exactly when it is a plug. -/
@[simp] theorem Operand.attach_eq_fitting_iff {a : Operand} {v : Plug} {port port' : String} :
    .attach v port = a.fitting port' ↔ a = .plug v ∧ port = port' := by
  cases a with
  | constant x => simp [Operand.fitting]
  | plug p => simp [Operand.fitting, eq_comm]

namespace Build

open RigScript.Graph

variable {c : Context} {names names' : List String} {g g' : Graph} {a b o : Operand}

/-- One fitting. -/
theorem fitted_fit {node : String} {f : Fitting}
    (h : (fit node f).Yields Graph.host names g () names' g') : g.Fitted g' node [f] := by
  cases f with
  | write port v =>
      obtain ⟨n, hn, -, -, rfl⟩ := perform_setAttribute.1 (yields_ask_graph.1 h).1
      exact fitted_putNode (checkAttr_eq_ok_iff.1 hn).1 (by rfl) (by rfl) _
  | key k =>
      obtain ⟨n, hn, rfl⟩ := perform_createKeyframe.1 (yields_ask_graph.1 h).1
      exact fitted_putNode (checkCurve_eq_ok_iff.1 hn).1 (by rfl) (by rfl) _
  | extend pre post =>
      obtain ⟨n, hn, rfl⟩ := perform_setExtrapolation.1 (yields_ask_graph.1 h).1
      exact fitted_putNode (checkCurve_eq_ok_iff.1 hn).1 (by rfl) (by rfl) _
  | attach source port =>
      obtain ⟨-, -, hfree, rfl⟩ := perform_connect.1 (yields_ask_graph.1 h).1
      have hnone : g.source? ⟨node, port⟩ = none := hfree.resolve_left Bool.false_ne_true
      refine ⟨agreeOn_putConnection g source ⟨node, port⟩ _, fun _ => rfl, fun port' v => ?_⟩
      simp only [Graph.source?, Std.ExtTreeMap.getElem?_insert, Std.LawfulEqOrd.compare_eq_iff_eq,
        Plug.mk.injEq, true_and, List.mem_singleton, Fitting.attach.injEq]
      by_cases hport : port = port'
      · subst hport
        have hnone' : g.connections[(⟨node, port⟩ : Plug)]? = none := hnone
        simp [hnone', eq_comm]
      · simp [hport, Ne.symm hport]

/-- Fittings one after the other. -/
theorem fitted_fitAll {node : String} {fs : List Fitting}
    (h : (fitAll node fs).Yields Graph.host names g () names' g') : g.Fitted g' node fs := by
  induction fs generalizing names g with
  | nil =>
      obtain ⟨-, -, rfl⟩ := yields_pure.1 h
      exact ⟨.refl _ g, fun _ => rfl, fun port v => by simp⟩
  | cons f fs ih =>
      obtain ⟨⟨⟩, _, g₁, hfit, hrest⟩ := yields_bind.1 h
      have hfirst := fitted_fit hfit
      have hlater := ih hrest
      refine ⟨hfirst.agree.trans hlater.agree,
        fun name => (hlater.kind?_eq name).trans (hfirst.kind?_eq name), fun port v => ?_⟩
      rw [hlater.source?_eq_some_iff, hfirst.source?_eq_some_iff, List.mem_singleton,
        List.mem_cons, or_assoc]

end Build

namespace Blueprint

open RigScript.Graph RigScript.Build

variable {names names' : List String} {g g' : Graph} {a b o : Operand} {operands : List Operand}

/-- **What the new node depends on**, in every later graph that keeps it: a port on what is attached
to it, and an output to which nothing is attached on the inputs of the node. -/
theorem dependsOn_iff_of_build {plan : Blueprint} (hg : g.WellFormed)
    (h : plan.build.Yields Graph.host names g o names' g') :
    ∃ node, o = .plug ⟨node, plan.output⟩ ∧ node ∉ g.nodes ∧ AgreeOn (· ≠ node) g g' ∧
      ∀ later, KeepsBuilt g g' later → ∀ (port : String) (q : Plug),
        later.DependsOn ⟨node, port⟩ q ↔ .attach q port ∈ plan.fittings ∨
          ((∀ w, .attach w port ∉ plan.fittings) ∧
            port ∈ (NodeKind.primitive plan.kind).outputs ∧ q.node = node ∧
            q.attr ∈ (NodeKind.primitive plan.kind).inputs) := by
  obtain ⟨node, _, g₁, hcreate, h⟩ := yields_bind.1 h
  obtain ⟨⟨⟩, _, g₂, hfit, h⟩ := yields_bind.1 h
  obtain ⟨rfl, -, rfl⟩ := yields_pure.1 h
  have hfresh := fresh_create hg hcreate
  have hfitted := fitted_fitAll hfit
  have hkind : g₂.kind? node = some (.primitive plan.kind) :=
    (hfitted.kind?_eq node).trans hfresh.kind?_eq
  have hbuilt : node ∈ g₂.nodes ∧ node ∉ g.nodes := by
    refine ⟨?_, hfresh.notMem⟩
    rw [mem_nodes_iff_isSome_kind?, hkind]
    rfl
  refine ⟨node, rfl, hfresh.notMem, hfresh.agree.trans hfitted.agree, fun later hlater port q => ?_⟩
  have hsource : ∀ v, later.source? ⟨node, port⟩ = some v ↔ .attach v port ∈ plan.fittings := by
    intro v
    rw [(hlater node hbuilt).2, hfitted.source?_eq_some_iff, hfresh.unwired]
    simp
  rw [dependsOn_iff_of_kind? (p := ⟨node, port⟩) ((hlater.kind?_eq hbuilt).trans hkind), hsource,
    Option.eq_none_iff_forall_ne_some]
  simp only [ne_eq, hsource]

/-- The node of a blueprint **joins** operands: those that are plugs are attached to inputs that the
output depends on, and nothing else is attached. -/
structure Joins (plan : Blueprint) (operands : List Operand) : Prop where
  mem_inputs : ∀ v port, .attach v port ∈ plan.fittings →
    port ∈ (NodeKind.primitive plan.kind).inputs
  output_mem : plan.output ∈ (NodeKind.primitive plan.kind).outputs
  attached_iff : ∀ v, (∃ port, .attach v port ∈ plan.fittings) ↔ .plug v ∈ operands

theorem Joins.congr {plan : Blueprint} {operands' : List Operand} (h : plan.Joins operands)
    (hoperands : ∀ v, .plug v ∈ operands ↔ .plug v ∈ operands') : plan.Joins operands' :=
  ⟨h.mem_inputs, h.output_mem, fun v => (h.attached_iff v).trans (hoperands v)⟩

/-- **A node that joins operands is a circuit** above them. -/
theorem Joins.circuit {plan : Blueprint} (hplan : plan.Joins operands) (hg : g.WellFormed)
    (h : plan.build.Yields Graph.host names g o names' g') :
    g.Circuit g' (fun v => .plug v ∈ operands) [o] := by
  obtain ⟨node, rfl, hnew, hagree, hdepends⟩ := dependsOn_iff_of_build hg h
  refine ⟨?_, ?_, ?_⟩
  · refine hagree.mono fun name hname => ?_
    rintro rfl
    exact hnew hname
  · rintro later hlater ⟨name, port⟩ hq
    have hnode : name = node := by
      rcases hq with ⟨hname, hnot⟩ | hq
      · by_contra hne
        exact hnot ((hagree.mem_nodes_iff hne).1 hname)
      · exact congrArg Plug.node (Operand.plug.inj (List.mem_singleton.1 hq))
    subst hnode
    have hleaf : ∀ {port v}, .attach v port ∈ plan.fittings →
        later.RestsOn (fun v => .plug v ∈ operands) v := fun {port v} hv =>
      .leaf ((hplan.attached_iff v).1 ⟨port, hv⟩)
    -- An output comes to a leaf in two steps, as its inputs are no outputs.
    refine .step fun r hr => ?_
    rcases (hdepends later hlater port r).1 hr with hv | ⟨-, -, hnode, hin⟩
    · exact hleaf hv
    · refine .step fun r' hr' => ?_
      obtain ⟨name', port'⟩ := r
      subst hnode
      rcases (hdepends later hlater port' r').1 hr' with hv | ⟨-, hout, -, -⟩
      · exact hleaf hv
      · exact absurd hout (NodeKind.notMem_outputs_of_mem_inputs hin)
  · intro later hlater v hv
    obtain ⟨port, hport⟩ := (hplan.attached_iff v).2 hv
    have hfree : ∀ w, .attach w plan.output ∉ plan.fittings := fun w hw =>
      NodeKind.notMem_outputs_of_mem_inputs (hplan.mem_inputs w _ hw) hplan.output_mem
    have hdown : later.DependsOn ⟨node, plan.output⟩ ⟨node, port⟩ :=
      (hdepends later hlater _ _).2
        (.inr ⟨hfree, hplan.output_mem, rfl, hplan.mem_inputs v port hport⟩)
    have hread : later.DependsOn ⟨node, port⟩ v := (hdepends later hlater _ _).2 (.inl hport)
    exact ⟨_, by simp, (ReflTransGen.single hdown).tail hread⟩

/-- A blueprint joins the operands that it supplies to the ports of its node. -/
theorem joins_of_supplies {plan : Blueprint} (supplies : List (Operand × String))
    (hports : (∀ s ∈ supplies, s.2 ∈ (NodeKind.primitive plan.kind).inputs) ∧
      plan.output ∈ (NodeKind.primitive plan.kind).outputs)
    (hmem : ∀ v port, .attach v port ∈ plan.fittings ↔ (.plug v, port) ∈ supplies) :
    plan.Joins (supplies.map Prod.fst) where
  mem_inputs v port h := hports.1 _ ((hmem v port).1 h)
  output_mem := hports.2
  attached_iff v := by simp [hmem]

theorem joins_multiplyDivide (a b : Operand) (divide : Bool) :
    (multiplyDivide a b divide).Joins [a, b] := by
  refine joins_of_supplies [(a, MultiplyDivide.input1), (b, MultiplyDivide.input2)] ?_ ?_
  · simp [multiplyDivide]
    decide
  · cases divide <;> simp [multiplyDivide, eq_comm]

theorem joins_plusMinus (a b : Operand) (subtract : Bool) :
    (plusMinus a b subtract).Joins [a, b] := by
  refine joins_of_supplies [(a, PlusMinusAverage.input1), (b, PlusMinusAverage.input2)] ?_ ?_
  · simp [plusMinus]
    decide
  · simp [plusMinus, eq_comm]

theorem joins_modulo (epsilon : Float) (a : Operand) (divisor : Float) :
    (modulo epsilon a divisor).Joins [a] := by
  refine joins_of_supplies [(a, RampCurve.input)] ?_ ?_
  · simp [modulo]
    decide
  · simp [modulo, eq_comm]

theorem joins_clamp {free : String} (value bound : Operand) (fixed : String) (limit : Float)
    (hfree : free ∈ (NodeKind.primitive .clamp).inputs) :
    (clamp value bound free fixed limit).Joins [value, bound] := by
  refine joins_of_supplies [(value, Clamp.input), (bound, free)] ?_ ?_
  · simp only [clamp, List.forall_mem_cons, hfree]
    decide
  · simp [clamp, eq_comm]

theorem joins_doubler (angle : Operand) : (doubler angle).Joins [angle] := by
  refine joins_of_supplies [(angle, MultDoubleLinear.input1)] ?_ ?_
  · simp [doubler]
    decide
  · simp [doubler, eq_comm]

theorem joins_quaternion (angle : Operand) : (quaternion angle).Joins [angle] := by
  refine joins_of_supplies [(angle, EulerToQuat.rotateX)] ?_ ?_
  · simp [quaternion]
    decide
  · simp [quaternion, eq_comm]

end Blueprint

/-- The blueprint of an operation joins its operands. -/
theorem BinaryOp.joins_blueprint {epsilon : Float} {a b : Operand} {op : BinaryOp}
    {plan : Blueprint} (h : op.blueprint epsilon a b = .ok plan) : plan.Joins [a, b] := by
  cases op with
  | add =>
      obtain rfl := Except.ok.inj h
      exact Blueprint.joins_plusMinus a b false
  | subtract =>
      obtain rfl := Except.ok.inj h
      exact Blueprint.joins_plusMinus a b true
  | multiply =>
      obtain rfl := Except.ok.inj h
      exact Blueprint.joins_multiplyDivide a b false
  | divide =>
      obtain rfl := Except.ok.inj h
      exact Blueprint.joins_multiplyDivide a b true
  | modulo =>
      cases b with
      | plug p => cases h
      | constant divisor =>
          simp only [blueprint] at h
          split at h
          · cases h
          · obtain rfl := Except.ok.inj h
            exact Blueprint.Joins.congr (Blueprint.joins_modulo epsilon a divisor) fun v => by simp
  | equal => cases h
  | unequal => cases h

/-- The plugs that paths stand for. -/
def Context.Reads (c : Context) (paths : List String) (v : Plug) : Prop :=
  ∃ path ∈ paths, c.resolve path = .ok v

@[simp] theorem Context.not_reads_nil (c : Context) (v : Plug) : ¬ c.Reads [] v := by
  simp [Reads]

theorem Context.reads_append (c : Context) (paths paths' : List String) (v : Plug) :
    c.Reads (paths ++ paths') v ↔ c.Reads paths v ∨ c.Reads paths' v := by
  simp [Reads, or_and_right, exists_or]

/-! ### Expressions as circuits -/

namespace Build

open RigScript.Graph

variable {c : Context} {names names' : List String} {g g' : Graph} {a b o : Operand}

theorem circuit_combine {op : BinaryOp} (hg : g.WellFormed)
    (h : (combine c op a b).Yields Graph.host names g o names' g') :
    g.Circuit g' (fun v => .plug v ∈ [a, b]) [o] := by
  rw [combine_eq] at h
  cases hplan : op.blueprint c.options.moduloEpsilon a b with
  | error e =>
      rw [hplan] at h
      exact absurd h not_yields_throw
  | ok plan =>
      rw [hplan] at h
      exact (BinaryOp.joins_blueprint hplan).circuit hg h

theorem circuit_negate (hg : g.WellFormed)
    (h : (negate a).Yields Graph.host names g o names' g') :
    g.Circuit g' (fun v => .plug v ∈ [a]) [o] := by
  cases a with
  | constant x =>
      obtain ⟨rfl, -, rfl⟩ := yields_pure.1 h
      exact (Circuit.refl g _).congr fun v => by simp
  | plug p =>
      rw [negate, multiplyDivide_eq] at h
      exact ((Blueprint.joins_multiplyDivide _ _ _).circuit hg h).congr fun v => by simp

theorem circuit_apply {name : String} {f : Builtin} {operands : List Operand} (hg : g.WellFormed)
    (h : (apply name f operands).Yields Graph.host names g o names' g') :
    g.Circuit g' (fun v => .plug v ∈ operands) [o] := by
  unfold apply at h
  split at h
  · rw [boundedAbove_eq] at h
    exact (Blueprint.joins_clamp _ _ _ _ (by decide)).circuit hg h
  · rw [boundedBelow_eq] at h
    exact (Blueprint.joins_clamp _ _ _ _ (by decide)).circuit hg h
  · rw [sine_eq] at h
    obtain ⟨twice, _, g₁, hdouble, h⟩ := yields_bind.1 h
    have hquat := (Blueprint.joins_quaternion twice).circuit (hdouble.wellFormed hg) h
    exact ((Blueprint.joins_doubler _).circuit hg hdouble).comp hquat
  · exact absurd h not_yields_throw

mutual

/-- **A lowered expression is a circuit that reads its paths.** -/
theorem circuit_lower {names names' : List String} {g g' : Graph} {a : Operand} (e : Expr)
    (hg : g.WellFormed) (h : (lower c e).Yields Graph.host names g a names' g') :
    g.Circuit g' (c.Reads e.paths) [a] := by
  match e with
  | .number x =>
      obtain ⟨rfl, -, rfl⟩ := yields_pure.1 h
      exact (Circuit.refl g _).congr fun v => by simp [Expr.paths]
  | .path text =>
      obtain ⟨p, _, _, hresolve, h⟩ := yields_bind.1 h
      obtain ⟨rfl, -, rfl⟩ := yields_pure.1 h
      obtain ⟨hp, rfl⟩ := yields_resolve hresolve
      exact (Circuit.refl g _).congr fun v => by simp [Expr.paths, Context.Reads, hp, eq_comm]
  | .brackets e => exact circuit_lower e hg h
  | .unary .plus e => exact circuit_lower e hg h
  | .unary .minus e =>
      obtain ⟨b, _, g₁, hb, h⟩ := yields_bind.1 h
      exact (circuit_lower e hg hb).comp (circuit_negate (hb.wellFormed hg) h)
  | .binary op left right =>
      have hlower : (do
          let a ← lower c left
          let b ← lower c right
          combine c op a b : Build Operand).Yields Graph.host names g a names' g' := by
        cases op with
        | equal => exact absurd h not_yields_throw
        | unequal => exact absurd h not_yields_throw
        | _ => exact h
      obtain ⟨l, _, g₁, hl, hlower⟩ := yields_bind.1 hlower
      obtain ⟨r, _, g₂, hr, hlower⟩ := yields_bind.1 hlower
      have hg₁ := hl.wellFormed hg
      have hboth := (circuit_lower left hg hl).append (circuit_lower right hg₁ hr)
      have hop := hboth.comp (circuit_combine (hr.wellFormed hg₁) hlower)
      exact hop.congr fun v => (c.reads_append left.paths right.paths v).symm
  | .call name args =>
      obtain ⟨f, _, _, hcheck, h⟩ := yields_bind.1 h
      obtain ⟨-, rfl⟩ := yields_checkCall hcheck
      obtain ⟨operands, _, g₁, hargs, h⟩ := yields_bind.1 h
      exact (circuit_lowerAll args hg hargs).comp (circuit_apply (hargs.wellFormed hg) h)

/-- Expressions lowered from left to right are circuits side by side. -/
theorem circuit_lowerAll {names names' : List String} {g g' : Graph} {as : List Operand}
    (es : List Expr) (hg : g.WellFormed)
    (h : (lowerAll c es).Yields Graph.host names g as names' g') :
    g.Circuit g' (c.Reads (Expr.pathsAll es)) as := by
  match es with
  | [] =>
      obtain ⟨rfl, -, rfl⟩ := yields_pure.1 h
      exact (Circuit.refl g _).congr fun v => by simp [Expr.pathsAll]
  | e :: es =>
      obtain ⟨a, _, g₁, ha, h⟩ := yields_bind.1 h
      obtain ⟨as, _, g₂, has, h⟩ := yields_bind.1 h
      obtain ⟨rfl, -, rfl⟩ := yields_pure.1 h
      have hboth := (circuit_lower e hg ha).append (circuit_lowerAll es (ha.wellFormed hg) has)
      exact hboth.congr fun v => (c.reads_append e.paths (Expr.pathsAll es) v).symm

end

end Build

/-! ### Closing a cycle -/

section Relations

variable {α : Type} {rel rel' : α → α → Prop} {a b : α}

/-- A walk along `rel` stays in a set that is closed under it, and is one along `rel'` if the steps
from the set are. -/
theorem transGen_of_closed {S : α → Prop} (hS : ∀ a b, S a → rel a b → rel' a b ∧ S b) (ha : S a)
    (h : TransGen rel a b) : TransGen rel' a b ∧ S b := by
  induction h with
  | single hstep =>
      obtain ⟨hstep', hb⟩ := hS _ _ ha hstep
      exact ⟨.single hstep', hb⟩
  | tail _ hstep ih =>
      obtain ⟨hstep', hb⟩ := hS _ _ ih.2 hstep
      exact ⟨ih.1.tail hstep', hb⟩

/-- A walk along `rel` from which one comes back is one along `rel'` if every step from which one
comes back is. -/
theorem transGen_of_returning (hrel : ∀ a b, rel a b → ReflTransGen rel b a → rel' a b)
    (h : TransGen rel a b) (hback : ReflTransGen rel b a) : TransGen rel' a b := by
  induction h with
  | single hstep => exact .single (hrel _ _ hstep hback)
  | tail hwalk hstep ih =>
      have hstep' := hrel _ _ hstep (hback.trans hwalk.to_reflTransGen)
      exact (ih (hback.head hstep)).tail hstep'

end Relations

namespace Graph

variable {g g' : Graph} {t q r v : Plug} {leaves : Plug → Prop}

/-- **No cycle is reachable** from a plug. -/
def CycleFree (g : Graph) (q : Plug) : Prop :=
  ∀ r, ReflTransGen g.DependsOn q r → ¬ TransGen g.DependsOn r r

/-- No cycle is reachable from a plug that rests on plugs from which none is. -/
theorem RestsOn.cycleFree (h : g.RestsOn leaves q) (hleaves : ∀ v, leaves v → g.CycleFree v) :
    g.CycleFree q := by
  induction h with
  | leaf hq => exact hleaves _ hq
  | step _ ih =>
      intro r hr hcycle
      -- A cycle through the plug itself goes through one of those that it depends on.
      rcases hr.cases_head with rfl | ⟨s, hs, hsr⟩
      · obtain ⟨s, hs, hback⟩ := TransGen.head'_iff.1 hcycle
        exact ih s hs _ hback hcycle
      · exact ih s hs r hsr hcycle

/-- The plug `t` is **redirected** to the leaves: what other old plugs depend on is the same, `t`
and the new plugs rest on the leaves, and `t` depends on all of these. -/
structure Redirected (g g' : Graph) (t : Plug) (leaves : Plug → Prop) : Prop where
  dependsOn_iff : ∀ q r, q.node ∈ g.nodes → q ≠ t → (g'.DependsOn q r ↔ g.DependsOn q r)
  rests_target : g'.RestsOn leaves t
  rests_new : ∀ q : Plug, q.node ∈ g'.nodes → q.node ∉ g.nodes → g'.RestsOn leaves q
  depends : ∀ v, leaves v → TransGen g'.DependsOn t v

namespace Redirected

/-- What reaches the redirected plug still does. -/
theorem reaches_target (h : g.Redirected g' t leaves) (hg : g.WellFormed) (hv : v.node ∈ g.nodes)
    (hreach : ReflTransGen g.DependsOn v t) : ReflTransGen g'.DependsOn v t := by
  induction hreach using ReflTransGen.head_induction_on with
  | refl => exact .refl
  | @head q r hstep _ ih =>
      by_cases hq : q = t
      · rw [hq]
      · exact (ih (hg.mem_of_dependsOn hstep).2).head ((h.dependsOn_iff q r hv hq).2 hstep)

/-- No cycle is reachable from an old plug that did not reach the redirected one, if there was no
cycle at all. -/
theorem cycleFree_of_not_reaches (h : g.Redirected g' t leaves) (hg : g.WellFormed)
    (hacyclic : ∀ p, ¬ TransGen g.DependsOn p p) (hv : v.node ∈ g.nodes)
    (hnot : ¬ ReflTransGen g.DependsOn v t) : g'.CycleFree v := by
  have hclosed : ∀ q r, q.node ∈ g.nodes ∧ ¬ ReflTransGen g.DependsOn q t → g'.DependsOn q r →
      g.DependsOn q r ∧ r.node ∈ g.nodes ∧ ¬ ReflTransGen g.DependsOn r t := by
    rintro q r ⟨hq, hqt⟩ hqr
    have hstep : g.DependsOn q r := by
      refine (h.dependsOn_iff q r hq ?_).1 hqr
      rintro rfl
      exact hqt .refl
    exact ⟨hstep, (hg.mem_of_dependsOn hstep).2, fun hrt => hqt (hrt.head hstep)⟩
  intro r hr hcycle
  rcases reflTransGen_iff_eq_or_transGen.1 hr with rfl | hr
  · exact hacyclic _ (transGen_of_closed hclosed ⟨hv, hnot⟩ hcycle).1
  · have hrS := (transGen_of_closed hclosed ⟨hv, hnot⟩ hr).2
    exact hacyclic _ (transGen_of_closed hclosed hrS hcycle).1

/-- **Redirecting a plug closes a cycle** exactly when a leaf reached the plug before. -/
theorem cycle_iff (h : g.Redirected g' t leaves) (hg : g.WellFormed) (hg' : g'.WellFormed)
    (hacyclic : ∀ p, ¬ TransGen g.DependsOn p p) (hleaves : ∀ v, leaves v → v.node ∈ g.nodes) :
    (∃ p, TransGen g'.DependsOn p p) ↔ ∃ v, leaves v ∧ ReflTransGen g.DependsOn v t := by
  constructor
  · rintro ⟨p, hp⟩
    by_contra hnone
    have hfree : ∀ v, leaves v → g'.CycleFree v := fun v hv =>
      h.cycleFree_of_not_reaches hg hacyclic (hleaves v hv) fun hvt => hnone ⟨v, hv, hvt⟩
    -- Neither the target nor a new plug is on the cycle, so it was there before.
    refine hacyclic p (transGen_of_returning (fun q r hstep hback => ?_) hp .refl)
    have hcycle : TransGen g'.DependsOn q q := .head' hstep hback
    have hold : q.node ∈ g.nodes := by
      by_contra hnew
      exact (h.rests_new q (hg'.mem_of_dependsOn hstep).1 hnew).cycleFree hfree q .refl hcycle
    refine (h.dependsOn_iff q r hold ?_).1 hstep
    rintro rfl
    exact h.rests_target.cycleFree hfree q .refl hcycle
  · rintro ⟨v, hv, hreach⟩
    exact ⟨t, (h.depends v hv).trans_left (h.reaches_target hg (hleaves v hv) hreach)⟩

end Redirected

end Graph

/-! ### Sentences -/

/-- A compilation leaves alone what the plugs depend on that are not its targets. -/
theorem Graph.Footprint.dependsOn_iff {base g : Graph} {targets : Plug → Prop}
    {created : List String} {q r : Plug} (h : base.Footprint targets created g)
    (hq : q.node ∈ base.nodes) (hnot : ¬ targets q) :
    g.DependsOn q r ↔ base.DependsOn q r :=
  dependsOn_congr (h.source?_eq q hq hnot) (h.kept_node hq).2.1

/-- A plug to which an operand is assigned depends on it, if it is a plug, and on nothing else. -/
theorem Graph.dependsOn_iff_of_recipe {g : Graph} {p q : Plug} {a : Operand}
    (h : g.recipe p = .ok a.recipe) : g.DependsOn p q ↔ a = .plug q := by
  rw [Graph.dependsOn_iff, h]
  cases a <;> simp [Operand.recipe, Recipe.needs, eq_comm]

namespace Build

open RigScript.Graph

variable {c : Context} {names names' : List String} {g g' : Graph} {s : Sentence} {t : Plug}

/-- **A sentence redirects its target** to the plugs that its expression reads, unless the target is
an output. -/
theorem redirected_sentence (hg : g.WellFormed)
    (h : (sentence c s).Yields Graph.host [] g () names' g') (ht : c.resolve s.target = .ok t)
    (hout : ¬ g.IsOutput t) : g.Redirected g' t (c.Reads s.value.paths) := by
  have hfoot : g.Footprint (fun p => c.resolve s.target = .ok p) names' g' :=
    footprint_of_yields_sentence (.refl g _) (fun _ hp => hp) h
  obtain ⟨dest, a, _, _, built, free, hdest, hassignable, hlower, hfree, hassign⟩ :=
    yields_sentence h
  obtain rfl := Except.ok.inj (ht.symm.trans hdest)
  have htmem : t.node ∈ g.nodes := hassignable.1.node_mem
  have hcircuit := circuit_lower s.value hg hlower
  have hassigned : built.Assigned g' t a.recipe := by
    rcases hfree with rfl | hlift
    · exact assigned_assign hassign
    · obtain ⟨hagree, hkind, hrecipe⟩ := recipe_setLocked hlift
      exact (assigned_assign hassign).after ⟨hagree, hkind, fun q _ => hrecipe q⟩
  have hkept : KeepsBuilt g built g' := by
    refine hassigned.agree.mono ?_
    rintro name ⟨-, hnew⟩ rfl
    exact hnew htmem
  have htarget : ∀ {r}, g'.DependsOn t r ↔ a = .plug r := by
    intro r
    refine dependsOn_iff_of_recipe (hassigned.recipe_self fun hout' => hout ?_)
    exact (isOutput_congr (hcircuit.grown.kind?_eq htmem)).1 hout'
  refine ⟨fun q r hq hne => hfoot.dependsOn_iff hq ?_, .step fun r hr => ?_, fun q hq hnew => ?_,
    fun v hv => ?_⟩
  · exact fun hq' => hne (Except.ok.inj (hq'.symm.trans ht))
  · exact hcircuit.rests g' hkept r (.inr (by simp [htarget.1 hr]))
  · rw [mem_nodes_iff_isSome_kind?, hassigned.kind?_eq, ← mem_nodes_iff_isSome_kind?] at hq
    exact hcircuit.rests g' hkept q (.inl ⟨hq, hnew⟩)
  · obtain ⟨p, hp, hreach⟩ := hcircuit.reads g' hkept v hv
    exact .head' (htarget.2 (List.mem_singleton.1 hp).symm) hreach

end Build

/-- **A sentence closes a cycle exactly when it has to.** Let a script of one sentence be compiled
on a reachable graph `g` without dependency cycles into `g'`, where the paths of the expression
stand for plugs of nodes of `g`, and the target for a plug `t` that is no output of a computing
node. Then `g'` has a dependency cycle if and only if, in `g`, the target is reachable from the plug
of one of the paths. -/
theorem sentence_cycle_iff {c : Context} {script : String} {s : Sentence} {g g' : Graph}
    {count : Nat} {t : Plug} (hg : g.Reachable) (hacyclic : ∀ p, ¬ TransGen g.DependsOn p p)
    (hparse : Program.parse (script ++ "\n") = .ok ⟨[.sentence s]⟩)
    (hrun : (compileScript c script).run.run Graph.host g = (.ok count, g'))
    (ht : c.resolve s.target = .ok t) (hout : ¬ g.IsOutput t)
    (hpaths : ∀ path ∈ s.value.paths, ∀ v, c.resolve path = .ok v → v.node ∈ g.nodes) :
    (∃ p, TransGen g'.DependsOn p p) ↔
      ∃ path ∈ s.value.paths, ∃ v, c.resolve path = .ok v ∧ ReflTransGen g.DependsOn v t := by
  obtain ⟨created, hcompiled, -⟩ := compileScript_eq_ok_iff.1 hrun
  have hsentences : scriptSentences script = [s] := scriptSentences_eq hparse
  have hyields := hcompiled.yields
  rw [hsentences] at hyields
  obtain ⟨⟨⟩, _, _, hs, hnil⟩ := Build.yields_bind.1 hyields
  obtain ⟨-, rfl, rfl⟩ := Build.yields_pure.1 hnil
  have hredirected := Build.redirected_sentence hg.wellFormed hs ht hout
  rw [hredirected.cycle_iff hg.wellFormed (hs.wellFormed hg.wellFormed) hacyclic
    fun v ⟨path, hpath, hv⟩ => hpaths path hpath v hv]
  constructor
  · rintro ⟨v, ⟨path, hpath, hv⟩, hreach⟩
    exact ⟨path, hpath, v, hv, hreach⟩
  · rintro ⟨path, hpath, v, hv, hreach⟩
    exact ⟨v, ⟨path, hpath, hv⟩, hreach⟩

/-- A node that does not compute has no outputs. -/
theorem Graph.not_isOutput_of_other {g : Graph} {p : Plug} (type : String)
    (hkind : g.kind? p.node = some (.other type)) : ¬ g.IsOutput p := by
  rintro ⟨k, hk, hmem⟩
  obtain rfl := Option.some.inj (hk.symm.trans hkind)
  cases hmem

/-- A control and a node that it does not drive yet depend on nothing. -/
theorem Graph.not_dependsOn_controlled (p q : Plug) : ¬ Graph.controlled.DependsOn p q := by
  have hkinds : ∀ entry ∈ Graph.controlled.nodes.toList, entry.2.kind.outputs = [] := by
    decide +kernel
  rintro (⟨hs⟩ | ⟨-, hn, hmem, -⟩)
  · cases hs
  · rw [hkinds _ (Std.ExtTreeMap.mem_toList_iff_getElem?_eq_some.2 hn)] at hmem
    cases hmem

/-- The graph in which a node is driven by a control. -/
def Graph.driven : Graph :=
  ((compileScript ⟨"e", {}⟩ "out.ty = ctrl.tx * 2;").run.run Graph.host Graph.controlled).2

/-- Driving a node by a control closes no cycle, and driving the control by the node then does. -/
theorem sentence_cycle_iff_driven :
    (¬ ∃ p, TransGen Graph.driven.DependsOn p p) ∧
      ∃ p, TransGen ((compileScript ⟨"e", {}⟩ "ctrl.tx = max(out.ty, 1) - 2;").run.run Graph.host
        Graph.driven).2.DependsOn p p := by
  have hctrl : (⟨"e", {}⟩ : Context).resolve "ctrl.tx" = .ok ⟨"ctrl", "tx"⟩ :=
    toOption_eq_some_iff.1 (by decide +kernel)
  have hout : (⟨"e", {}⟩ : Context).resolve "out.ty" = .ok ⟨"out", "ty"⟩ :=
    toOption_eq_some_iff.1 (by decide +kernel)
  have hfirst : ¬ ∃ p, TransGen Graph.driven.DependsOn p p := by
    have hparse : Program.parse ("out.ty = ctrl.tx * 2;" ++ "\n") = .ok ⟨[.sentence ⟨"out.ty",
        .binary .multiply (.path "ctrl.tx") (.number 2.0)⟩]⟩ :=
      toOption_eq_some_iff.1 (by decide +kernel)
    have hrun : (compileScript ⟨"e", {}⟩ "out.ty = ctrl.tx * 2;").run.run Graph.host
        Graph.controlled = (.ok 1, Graph.driven) :=
      Prod.ext (toOption_eq_some_iff.1 (by decide +kernel)) rfl
    have hacyclic : ∀ p, ¬ TransGen Graph.controlled.DependsOn p p := by
      intro p hp
      obtain ⟨q, hq, -⟩ := TransGen.head'_iff.1 hp
      exact Graph.not_dependsOn_controlled p q hq
    rw [sentence_cycle_iff Graph.reachable_controlled hacyclic hparse hrun hout
      (Graph.not_isOutput_of_other "transform" (by decide +kernel))]
    · simp only [Expr.paths, List.append_nil, List.mem_singleton, exists_eq_left, hctrl,
        Except.ok.injEq, exists_eq_left']
      intro hwalk
      rcases hwalk.cases_head with heq | ⟨q, hq, -⟩
      · exact absurd heq (by decide)
      · exact Graph.not_dependsOn_controlled _ q hq
    · simp only [Expr.paths, List.append_nil, List.mem_singleton, forall_eq, hctrl,
        Except.ok.injEq, forall_eq']
      decide +kernel
  refine ⟨hfirst, ?_⟩
  have hparse : Program.parse ("ctrl.tx = max(out.ty, 1) - 2;" ++ "\n") = .ok ⟨[.sentence
      ⟨"ctrl.tx", .binary .subtract (.call "max" [.path "out.ty", .number 1.0]) (.number 2.0)⟩]⟩ :=
    toOption_eq_some_iff.1 (by decide +kernel)
  have hrun : (compileScript ⟨"e", {}⟩ "ctrl.tx = max(out.ty, 1) - 2;").run.run Graph.host
      Graph.driven = (.ok 2, _) :=
    Prod.ext (toOption_eq_some_iff.1 (by decide +kernel)) rfl
  -- The node depends on the control through the product that was built for the first sentence.
  obtain ⟨hkind, hproduct, hfree, hcontrol, hother, hmem⟩ :
      Graph.driven.kind? "multiplyDivide1" = some (.primitive .multiplyDivide) ∧
      Graph.driven.source? ⟨"out", "ty"⟩ = some ⟨"multiplyDivide1", MultiplyDivide.output⟩ ∧
      Graph.driven.source? ⟨"multiplyDivide1", MultiplyDivide.output⟩ = none ∧
      Graph.driven.source? ⟨"multiplyDivide1", MultiplyDivide.input1⟩ = some ⟨"ctrl", "tx"⟩ ∧
      Graph.driven.kind? "ctrl" = some (.other "transform") ∧ "out" ∈ Graph.driven.nodes := by
    decide +kernel
  have hformula : Graph.driven.DependsOn ⟨"multiplyDivide1", MultiplyDivide.output⟩
      ⟨"multiplyDivide1", MultiplyDivide.input1⟩ :=
    (Graph.dependsOn_iff_of_kind? hkind).2 (.inr ⟨hfree, by decide, rfl, by decide⟩)
  have hwalk : ReflTransGen Graph.driven.DependsOn ⟨"out", "ty"⟩ ⟨"ctrl", "tx"⟩ :=
    .head (.source hproduct) (.head hformula (.single (.source hcontrol)))
  have hreach' : Graph.driven.Reachable := Graph.reachable_controlled.run _
  refine (sentence_cycle_iff hreach' (fun p hp => hfirst ⟨p, hp⟩) hparse hrun hctrl
    (Graph.not_isOutput_of_other "transform" hother) ?_).2
    ⟨"out.ty", by simp [Expr.paths, Expr.pathsAll], _, hout, hwalk⟩
  simpa [Expr.paths, Expr.pathsAll, hout] using hmem

end RigScript
