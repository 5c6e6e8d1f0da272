import Mathlib.Algebra.GroupWithZero.Nat
import RigScript.Proofs.Compile.Compilable

/-!
# Exact accounting of nodes

The number of nodes that a script is compiled to can be read off the script. Every operation has a
cost, a sign on what folds to a number has none, and the cost of a script is that of all its
expressions. With any host, a compilation that succeeds creates exactly that many nodes.

In a scene graph the books balance. A compiled script adds its cost to the number of nodes. A batch
moreover takes away one node for each construct that it converts, and if it fails and is rolled
back, the construct that failed leaves no trace in the number of nodes.

## Main definitions

* `RigScript.Expr.cost`, `RigScript.scriptCost`: what an expression and a script cost
* `RigScript.Graph.constructCost`: what the script costs that a construct holds
* `RigScript.Build.Creates`: how many nodes a construction creates, with any host
* `RigScript.Graph.Balanced`: the books of a batch

## Main results

* `RigScript.Build.creates_lower`: a lowered expression creates as many nodes as it costs
* `RigScript.Graph.Balanced.convertEach`: the books are balanced after every construct
* `RigScript.nodeCount_accounting`: **the exact accounting of nodes**
-/

namespace RigScript

/-! ### Costs -/

/-- The number of nodes that a function is. -/
def Builtin.cost : Builtin → Nat
  | min => 1
  | max => 1
  | sin => 2

mutual

/-- **The cost of an expression**: the number of nodes that it is lowered to. A sign on what folds
to a number is free, and so is the right operand of a remainder, which has to fold to a number. -/
def Expr.cost : Expr → Nat
  | .number _ => 0
  | .path _ => 0
  | .brackets e => e.cost
  | .unary .plus e => e.cost
  | .unary .minus e => e.cost + if e.literal?.isSome then 0 else 1
  | .binary .modulo left _ => left.cost + 1
  | .binary _ left right => left.cost + right.cost + 1
  | .call name args => Expr.costAll args + ((Builtin.ofName? name).map Builtin.cost).getD 0

/-- The cost of several expressions. -/
def Expr.costAll : List Expr → Nat
  | [] => 0
  | e :: es => e.cost + Expr.costAll es

end

/-- The cost of sentences. -/
def sentencesCost (ss : List Sentence) : Nat :=
  (ss.map fun s => s.value.cost).sum

/-- The cost of a script. -/
def scriptCost (script : String) : Nat :=
  sentencesCost (scriptSentences script)

/-- The cost of the script that a construct holds. -/
def Graph.constructCost (g : Graph) (o : Options) (name : String) : Nat :=
  match g.value? ⟨name, o.scriptAttribute⟩ with
  | some (.string script) => scriptCost script
  | _ => 0

/-- What folds to a number costs nothing. -/
theorem Expr.cost_of_literal? {e : Expr} (h : e.literal?.isSome) : e.cost = 0 := by
  fun_induction Expr.literal? e with
  | case1 x => rw [cost]
  | case2 e ih => rw [cost, ih h]
  | case3 e ih => rw [cost, ih h]
  | case4 e ih =>
      rw [Option.isSome_map] at h
      rw [cost, ih h, if_pos h]
  | case5 => cases h

/-! ### What constructions create -/

namespace Build

variable {α β : Type} {P Q : α → Nat → Prop}

/-- With any host, a construction that succeeds **creates** a number of nodes that `post` allows for
its result. -/
def Creates (b : Build α) (post : α → Nat → Prop) : Prop :=
  ∀ ⦃σ : Type⦄ (host : Host σ) ⦃names s a names' s'⦄, b.Yields host names s a names' s' →
    ∃ n, names'.length = names.length + n ∧ post a n

namespace Creates

theorem pure {a : α} (h : P a 0) : Creates (pure a) P := by
  intro σ host names s a' names' s' hrun
  obtain ⟨rfl, rfl, -⟩ := yields_pure.1 hrun
  exact ⟨0, rfl, h⟩

theorem throw {e : ConvertError} : Creates (throw e) P :=
  fun _ _ _ _ _ _ _ hrun => absurd hrun not_yields_throw

theorem mono {b : Build α} (hb : b.Creates P) (h : ∀ a n, P a n → Q a n) : b.Creates Q := by
  intro σ host names s a names' s' hrun
  obtain ⟨n, hnames, hn⟩ := hb host hrun
  exact ⟨n, hnames, h a n hn⟩

/-- The nodes of two constructions add up. -/
theorem bind {b : Build α} {f : α → Build β} {R : β → Nat → Prop} (hb : b.Creates P)
    (hf : ∀ a m, P a m → (f a).Creates fun y n => R y (m + n)) : (b >>= f).Creates R := by
  intro σ host names s y names' s' hrun
  obtain ⟨a, mid, t, hfirst, hrest⟩ := yields_bind.1 hrun
  obtain ⟨m, hmid, hm⟩ := hb host hfirst
  obtain ⟨n, hnames, hn⟩ := hf a m hm host hrest
  exact ⟨m + n, by rw [hnames, hmid, Nat.add_assoc], hn⟩

/-- A request that is not for a new node. -/
theorem ask (r : Request) : (ask r).Creates fun _ n => n = 0 := by
  intro σ host names s reply names' s' hrun
  obtain ⟨-, rfl⟩ := yields_ask.1 hrun
  exact ⟨0, rfl, rfl⟩

theorem create (kind : NodeKind) : (create kind).Creates fun _ n => n = 1 := by
  intro σ host names s name names' s' hrun
  obtain ⟨-, rfl⟩ := yields_create.1 hrun
  exact ⟨1, by simp, rfl⟩

/-- A construction that creates nothing comes first. -/
theorem seq {b : Build α} {f : α → Build β} {R : β → Nat → Prop}
    (hb : b.Creates fun _ n => n = 0) (hf : ∀ a, (f a).Creates R) : (b >>= f).Creates R := by
  refine .bind hb fun a m hm => (hf a).mono fun y n hn => ?_
  rwa [hm, Nat.zero_add]

end Creates

theorem creates_fitAll (node : String) (fs : List Fitting) :
    (fitAll node fs).Creates fun _ n => n = 0 := by
  induction fs with
  | nil => exact .pure rfl
  | cons f fs ih =>
      refine .seq ?_ fun _ => ih
      cases f <;> exact .ask _

/-- A blueprint is one node. -/
theorem creates_build (plan : Blueprint) :
    plan.build.Creates fun o n => o.constant? = none ∧ n = 1 := by
  refine .bind (.create _) fun node m hm => .seq (creates_fitAll node _) fun _ => .pure ⟨rfl, hm⟩

theorem creates_negate (a : Operand) :
    (negate a).Creates fun o n => o.constant? = a.constant?.map (fun x => -x) ∧
      n = if a.constant?.isSome then 0 else 1 := by
  cases a with
  | constant x => exact .pure ⟨rfl, rfl⟩
  | plug p =>
      rw [negate, multiplyDivide_eq]
      exact creates_build _

/-- An operation on two operands is one node, and only a number is the divisor of a remainder. -/
theorem creates_combine (c : Context) (op : BinaryOp) (a b : Operand) :
    (combine c op a b).Creates fun o n =>
      o.constant? = none ∧ n = 1 ∧ (op = .modulo → b.constant?.isSome) := by
  rw [combine_eq]
  cases hplan : op.blueprint c.options.moduloEpsilon a b with
  | error e => exact .throw
  | ok plan =>
      refine (creates_build plan).mono fun o n ⟨ho, hn⟩ => ⟨ho, hn, ?_⟩
      rintro rfl
      obtain ⟨d, hd, -⟩ := BinaryOp.exists_blueprint_iff.1 ⟨plan, hplan⟩
      rw [hd]
      rfl

theorem creates_apply (name : String) (f : Builtin) (operands : List Operand) :
    (apply name f operands).Creates fun o n => o.constant? = none ∧ n = f.cost := by
  unfold apply
  split
  · exact boundedAbove_eq _ _ ▸ creates_build _
  · exact boundedBelow_eq _ _ ▸ creates_build _
  · rw [sine_eq]
    refine .bind (creates_build _) fun twice m ⟨_, hm⟩ => (creates_build _).mono ?_
    rintro o n ⟨ho, rfl⟩
    exact ⟨ho, by rw [hm, Builtin.cost]⟩
  · exact .throw

theorem creates_checkCall (name : String) (found : Nat) :
    (checkCall name found).Creates fun f n => Builtin.ofName? name = some f ∧ n = 0 := by
  unfold checkCall
  split
  · exact .throw
  · next f hf =>
    split
    · exact .pure ⟨hf, rfl⟩
    · exact .throw

theorem creates_resolve (c : Context) (path : String) :
    (resolve c path).Creates fun _ n => n = 0 := by
  unfold resolve
  split
  · exact .pure rfl
  · exact .throw

mutual

/-- **A lowered expression creates as many nodes as it costs**, and it is a number exactly when the
expression folds to one. -/
theorem creates_lower (c : Context) (e : Expr) :
    (lower c e).Creates fun a n => a.constant? = e.literal? ∧ n = e.cost := by
  match e with
  | .number x => exact .pure ⟨rfl, by rw [Expr.cost]⟩
  | .path text =>
      exact .seq (creates_resolve c text) fun _ => .pure ⟨rfl, by rw [Expr.cost]⟩
  | .brackets e =>
      refine (creates_lower c e).mono fun a n ⟨ha, hn⟩ => ⟨ha, ?_⟩
      rw [Expr.cost, hn]
  | .unary .plus e =>
      refine (creates_lower c e).mono fun a n ⟨ha, hn⟩ => ⟨ha, ?_⟩
      rw [Expr.cost, hn]
  | .unary .minus e =>
      refine .bind (creates_lower c e) fun a m ⟨ha, hm⟩ => (creates_negate a).mono ?_
      rintro o n ⟨ho, hn⟩
      rw [ha] at ho hn
      exact ⟨ho, by rw [Expr.cost, hm, hn]⟩
  | .binary op left right =>
      have hboth : (do
          let a ← lower c left
          let b ← lower c right
          combine c op a b : Build Operand).Creates fun o n =>
            o.constant? = none ∧ n = (Expr.binary op left right).cost := by
        refine .bind (creates_lower c left) fun a m ⟨_, hm⟩ =>
          .bind (creates_lower c right) fun b k ⟨hb, hk⟩ => (creates_combine c op a b).mono ?_
        rintro o n ⟨ho, rfl, hdivisor⟩
        refine ⟨ho, ?_⟩
        by_cases hop : op = .modulo
        · subst hop
          rw [hb] at hdivisor
          rw [Expr.cost, hm, hk, Expr.cost_of_literal? (hdivisor rfl), Nat.zero_add]
        · rw [Expr.cost, hm, hk, Nat.add_assoc]
          exact hop
      cases op with
      | equal => exact .throw
      | unequal => exact .throw
      | _ => exact hboth
  | .call name args =>
      refine .bind (creates_checkCall name args.length) fun f m ⟨hf, hm⟩ => ?_
      refine .bind (creates_lowerAll c args) fun operands k hk => ?_
      refine (creates_apply name f operands).mono ?_
      rintro o n ⟨ho, hn⟩
      refine ⟨ho, ?_⟩
      rw [Expr.cost, hf, Option.map_some, Option.getD_some, hm, hk, hn, Nat.zero_add]

theorem creates_lowerAll (c : Context) (es : List Expr) :
    (lowerAll c es).Creates fun _ n => n = Expr.costAll es := by
  match es with
  | [] => exact .pure (by rw [Expr.costAll])
  | e :: es =>
      refine .bind (creates_lower c e) fun a m ⟨_, hm⟩ => ?_
      refine .bind (creates_lowerAll c es) fun as k hk => ?_
      exact .pure (by rw [Expr.costAll, hm, hk, Nat.add_zero])

end

theorem creates_destination (c : Context) (target : String) :
    (destination c target).Creates fun _ n => n = 0 := by
  refine .seq (creates_resolve c target) fun plug => .seq (.ask _) fun v => ?_
  split
  · exact .pure rfl
  · exact .throw

theorem creates_assign (dest : Plug) (a : Operand) : (assign dest a).Creates fun _ n => n = 0 := by
  cases a with
  | constant x => exact .seq (.ask _) fun _ => .ask _
  | plug p => exact .ask _

/-- A sentence creates the nodes of its expression. -/
theorem creates_sentence (c : Context) (s : Sentence) :
    (sentence c s).Creates fun _ n => n = s.value.cost := by
  refine .seq (creates_destination c s.target) fun dest => ?_
  refine .bind (creates_lower c s.value) fun a m ⟨_, hm⟩ => .seq (.ask _) fun locked => ?_
  have hassign : (assign dest a).Creates fun _ n => m + n = s.value.cost := by
    refine (creates_assign dest a).mono ?_
    rintro _ n rfl
    exact hm
  cases locked with
  | true => exact .seq (.ask _) fun _ => hassign
  | false => exact hassign

theorem creates_sentences (c : Context) (ss : List Sentence) :
    (sentences c ss).Creates fun _ n => n = sentencesCost ss := by
  induction ss with
  | nil => exact .pure rfl
  | cons s ss ih =>
      refine .bind (creates_sentence c s) fun _ m hm => ih.mono fun _ n hn => ?_
      rw [hm, hn, sentencesCost, sentencesCost, List.map_cons, List.sum_cons]

end Build

/-- **A compiled script creates as many nodes as it costs**, with any host. -/
theorem length_created_eq_scriptCost {σ : Type} {host : Host σ} {c : Context} {script : String}
    {st st' : σ} {created : List String}
    (h : (compileNodes c script).Yields host st created st') :
    Program.parse (script ++ "\n") = .ok ⟨(scriptSentences script).map .sentence⟩ ∧
      created.length = scriptCost script := by
  obtain ⟨p, hparse, hbuild⟩ := Attempt.yields_compileNodes.1 h
  unfold Build.program at hbuild
  split at hbuild
  · exact absurd hbuild Build.not_yields_throw
  · next ss hss =>
    obtain rfl := Program.eq_of_sentences? hss
    obtain ⟨n, hn, rfl⟩ := Build.creates_sentences c ss host hbuild
    rw [scriptCost, scriptSentences_eq hparse]
    exact ⟨hparse, by simpa using hn⟩

/-! ### Counting the nodes of a graph -/

namespace Graph

variable {g g' base : Graph} {targets : Plug → Prop} {created : List String}

/-- A compilation adds the nodes that it created. -/
theorem Footprint.nodeCount_eq (h : base.Footprint targets created g) :
    g.nodeCount = base.nodeCount + created.length := by
  have hperm : g.nodes.keys.Perm (base.nodes.keys ++ created) := by
    refine (List.perm_ext_iff_of_nodup g.nodes.nodup_keys ?_).2 fun name => ?_
    · refine List.nodup_append.2 ⟨base.nodes.nodup_keys, h.nodup, ?_⟩
      rintro name hname _ hcreated rfl
      exact h.notMem_base name hcreated (Std.ExtTreeMap.mem_keys.1 hname)
    · rw [List.mem_append, Std.ExtTreeMap.mem_keys, Std.ExtTreeMap.mem_keys, h.mem_nodes_iff]
  have hlength := hperm.length_eq
  rwa [List.length_append, Std.ExtTreeMap.length_keys, Std.ExtTreeMap.length_keys] at hlength

/-- A deletion takes away one node. -/
theorem nodeCount_deleteNode {name : String} (h : g.perform (.deleteNode name) = .ok ((), g')) :
    g'.nodeCount + 1 = g.nodeCount := by
  obtain ⟨⟨n, hn⟩, rfl⟩ := perform_deleteNode.1 h
  have hmem := mem_nodes_of_eq_some hn
  have hpos := List.length_pos_of_mem (Std.ExtTreeMap.mem_keys.2 hmem)
  rw [Std.ExtTreeMap.length_keys] at hpos
  change (g.nodes.erase name).size + 1 = g.nodes.size
  rw [Std.ExtTreeMap.size_erase, if_pos (Std.ExtTreeMap.mem_iff_contains.1 hmem)]
  omega

end Graph

/-! ### Batches -/

/-- **The construct that ends a batch.** The constructs before it were gone through, and its turn is
the one that fails. -/
theorem exists_failed_turn {σ : Type} {host : Host σ} {o : Options} {names : List String}
    {report : Report} {st st' : σ} {e : ConvertError}
    (h : (convertEach o names report).run.run host st = (.error e, st')) :
    ∃ before name after mid st₁, names = before ++ name :: after ∧
      (convertEach o before report).Yields host st mid st₁ ∧
      (convertEach o [name] mid).run.run host st₁ = (.error e, st') := by
  induction names generalizing report st with
  | nil => cases h
  | cons name names ih =>
      rw [← List.singleton_append, convertEach_append] at h
      rcases Attempt.held_bind_eq_error h with ⟨hfail, -⟩ | ⟨mid, st₁, hturn, hrest, -⟩
      · exact ⟨[], name, names, report, st, rfl, Attempt.yields_pure.2 ⟨rfl, rfl⟩, hfail⟩
      · obtain ⟨before, name', after, mid', st₂, rfl, hbefore, hfail⟩ := ih hrest
        refine ⟨name :: before, name', after, mid', st₂, rfl, ?_, hfail⟩
        rw [← List.singleton_append, convertEach_append, Attempt.yields_bind]
        exact ⟨mid, st₁, hturn, hbefore⟩

namespace Graph

variable {g g' : Graph} {o : Options}

/-- **A construct that fails to be replaced leaves no node behind**, if it is rolled back. -/
theorem footprint_of_failed_replaceConstruct {c : Context} {e : ConvertError} (hg : g.WellFormed)
    (hpolicy : c.options.rollback = .failedConstruct)
    (h : (replaceConstruct c).run.run host g = (.error e, g')) :
    ∃ targets, g.Footprint targets [] g' := by
  rcases Attempt.held_bind_eq_error h with ⟨hnodes, -⟩ | ⟨created, g₁, hnodes, hrest, -⟩
  · obtain ⟨-, ⟨e', hread⟩ | ⟨script, hread, -⟩⟩ := held_readScript c g
    · rw [constructNodes, (Attempt.held_bind_error hread).1] at hnodes
      obtain ⟨-, rfl⟩ := Prod.mk.inj hnodes
      exact ⟨fun _ => False, .refl g _⟩
    · rw [constructNodes, (Attempt.held_bind_ok hread).1] at hnodes
      have hafter := aftermath_compileNodes c hg script
      rw [hnodes] at hafter
      cases hafter with
      | error _ hfoot hcreated => exact ⟨_, hcreated hpolicy ▸ hfoot⟩
  · -- A construct that was compiled is there, so its deletion is granted.
    obtain ⟨targets, hfoot, hmem, -, -⟩ := footprint_constructNodes hg hnodes
    rcases Attempt.held_bind_eq_error hrest with ⟨hcommit, -⟩ | ⟨x, g₂, -, hdone, -⟩
    · obtain ⟨refusal, g₂, hrespond, -, -⟩ := held_commit hcommit
      obtain ⟨n, hn⟩ := exists_node_of_mem ((hfoot.mem_nodes_iff c.identity).2 (.inl hmem))
      have hdelete := host_respond_eq_ok.2 (perform_deleteNode.2 ⟨⟨n, hn⟩, rfl⟩)
      cases hrespond.symm.trans hdelete
    · cases hdone

/-- **The books of a batch are balanced** when the graph `g` has become `g'`: the nodes created are
those that the converted constructs cost, and the number of nodes has changed by these and by the
constructs deleted. The constructs that are still `pending` are there with the scripts they held. -/
structure Balanced (g : Graph) (o : Options) (pending : List String) (report : Report)
    (g' : Graph) : Prop where
  wellFormed : g'.WellFormed
  mem_nodes : ∀ name ∈ pending, name ∈ g'.nodes
  script : ∀ name ∈ pending, ∀ text,
    g'.value? ⟨name, o.scriptAttribute⟩ = some (.string text) →
      g.value? ⟨name, o.scriptAttribute⟩ = some (.string text)
  nodesCreated_eq : report.nodesCreated = (report.converted.map (g.constructCost o)).sum
  nodeCount_eq : g'.nodeCount + report.converted.length = g.nodeCount + report.nodesCreated

namespace Balanced

variable {pending names : List String} {report result : Report} {g₁ g₂ : Graph} {name : String}

/-- The books are balanced when a batch begins. -/
theorem start (hg : g.WellFormed) (hpending : ∀ name ∈ pending, name ∈ g.nodes) :
    g.Balanced o pending {} g where
  wellFormed := hg
  mem_nodes := hpending
  script _ _ _ h := h
  nodesCreated_eq := rfl
  nodeCount_eq := rfl

/-- A construct is left alone. -/
theorem skip (h : g.Balanced o (name :: pending) report g₁) (skipped : List String) :
    g.Balanced o pending { report with skipped } g₁ where
  wellFormed := h.wellFormed
  mem_nodes x hx := h.mem_nodes x (List.mem_cons_of_mem name hx)
  script x hx := h.script x (List.mem_cons_of_mem name hx)
  nodesCreated_eq := h.nodesCreated_eq
  nodeCount_eq := h.nodeCount_eq

/-- A construct is replaced: its nodes are added, and it is taken away. -/
theorem replace (h : g.Balanced o (name :: pending) report g₁) (hname : name ∉ pending)
    {count : Nat} (hrun : (replaceConstruct ⟨name, o⟩).Yields Graph.host g₁ count g₂) :
    g.Balanced o pending
      { report with
        converted := report.converted ++ [name]
        nodesCreated := report.nodesCreated + count } g₂ := by
  have hwell : g₂.WellFormed := by
    have hkept := run_preserves (fun h hr => WellFormed.perform h hr)
      (replaceConstruct ⟨name, o⟩).run h.wellFormed
    rwa [hrun] at hkept
  obtain ⟨text, created, compiled, htext, hnodes, hdelete, rfl⟩ :=
    Attempt.yields_replaceConstruct hrun
  have hafter := aftermath_compileNodes ⟨name, o⟩ h.wellFormed text
  rw [hnodes] at hafter
  obtain ⟨hfoot, -⟩ := hafter
  have hcost : g.constructCost o name = created.length := by
    rw [constructCost, h.script name (by simp) text htext, (length_created_eq_scriptCost hnodes).2]
  have hkept : ∀ x ∈ pending, g₂.nodes[x]? = compiled.nodes[x]? := by
    intro x hx
    refine nodes_deleteNode hdelete ?_
    rintro rfl
    exact hname hx
  refine ⟨hwell, fun x hx => ?_, fun x hx text' htext' => ?_, ?_, ?_⟩
  · rw [Std.ExtTreeMap.mem_iff_isSome_getElem?, hkept x hx,
      ← Std.ExtTreeMap.mem_iff_isSome_getElem?]
    exact (hfoot.kept_node (h.mem_nodes x (List.mem_cons_of_mem name hx))).1
  · have hmem := h.mem_nodes x (List.mem_cons_of_mem name hx)
    refine h.script x (List.mem_cons_of_mem name hx) text' ?_
    refine hfoot.value?_eq_some_of_not_isScalar hmem ?_ rfl
    rwa [value?, ← hkept x hx]
  · simp [h.nodesCreated_eq, hcost]
  · have hadded := hfoot.nodeCount_eq
    have htaken := nodeCount_deleteNode hdelete
    have hbefore := h.nodeCount_eq
    simp only [List.length_append, List.length_singleton]
    omega

/-- **The books stay balanced** while a batch goes through constructs. -/
theorem convertEach (h : g.Balanced o (names ++ pending) report g₁)
    (hnodup : (names ++ pending).Nodup)
    (hrun : (convertEach o names report).Yields Graph.host g₁ result g₂) :
    g.Balanced o pending result g₂ := by
  induction names generalizing report g₁ with
  | nil =>
      obtain ⟨rfl, rfl⟩ := Attempt.yields_pure.1 hrun
      exact h
  | cons name names ih =>
      obtain ⟨hname, hnodup⟩ := List.nodup_cons.1 hnodup
      obtain ⟨incoming, _, hasked, hrest⟩ := Attempt.yields_bind.1 hrun
      obtain ⟨-, rfl⟩ := perform_listIncoming.1 (host_respond_eq_ok.1
        (Attempt.yields_ask.1 hasked))
      by_cases hidle : isIdle incoming = true
      · rw [if_pos hidle] at hrest
        exact ih (h.skip _) hnodup hrest
      · rw [if_neg hidle] at hrest
        obtain ⟨count, g₃, hwithin, hrest⟩ := Attempt.yields_bind.1 hrest
        exact ih (h.replace hname (Attempt.yields_within.1 hwithin)) hnodup hrest

end Balanced

/-- A batch in a scene graph goes through the constructs of the graph and then empties the
selection. -/
theorem run_convertAll (o : Options) (g : Graph) :
    (convertAll o).run.run host g =
      (((convertEach o (g.listConstructs o.constructKind) {}).run.run host g).1,
        (host.respond ((convertEach o (g.listConstructs o.constructKind) {}).run.run host g).2
          .clearSelection).2) := by
  have hlisted : (convertListed o).run.run host g =
      (convertEach o (g.listConstructs o.constructKind) {}).run.run host g :=
    (Attempt.held_bind_ok (Attempt.held_ask_ok rfl).1).1
  simp only [convertAll, ExceptT.run_mk, Dialogue.bind_eq, Dialogue.run_bind, hlisted,
    Dialogue.send, Dialogue.run_ask, Dialogue.run_done]
  generalize (convertEach o (g.listConstructs o.constructKind) {}).run.run host g = out
  obtain ⟨outcome | outcome, g₁⟩ := out
  · rfl
  · rfl

/-- **A turn that fails** fails because the construct cannot be replaced. -/
theorem replaceConstruct_of_failed_turn {name : String} {report : Report} {e : ConvertError}
    (hname : name ∈ g.nodes)
    (h : (convertEach o [name] report).run.run host g = (.error e, g')) :
    ∃ e', e = .conversion name e' ∧
      (replaceConstruct ⟨name, o⟩).run.run host g = (.error e', g') := by
  obtain ⟨n, hn⟩ := exists_node_of_mem hname
  obtain ⟨incoming, hincoming⟩ : ∃ incoming, g.listIncoming ⟨name, o.input⟩ = .ok incoming := by
    rw [listIncoming, node_eq_ok_iff.2 hn]
    exact ⟨_, rfl⟩
  have hask : host.respond g (.listIncoming ⟨name, o.input⟩) = (.ok incoming, g) :=
    host_respond_eq_ok.2 (perform_listIncoming.2 ⟨hincoming, rfl⟩)
  rw [RigScript.convertEach, (Attempt.held_bind_ok (Attempt.held_ask_ok hask).1).1] at h
  by_cases hidle : isIdle incoming = true
  · rw [if_pos hidle] at h
    cases h
  · rw [if_neg hidle] at h
    rcases Attempt.held_bind_eq_error h with ⟨hwithin, -⟩ | ⟨_, _, -, hdone, -⟩
    · cases hreplace : (replaceConstruct ⟨name, o⟩).run.run host g with
      | mk outcome g₁ =>
          cases outcome with
          | ok count => cases (Attempt.yields_within.2 hreplace).symm.trans hwithin
          | error e' =>
              cases (Attempt.held_within_error name hreplace).1.symm.trans hwithin
              exact ⟨e', rfl, rfl⟩
    · cases hdone

end Graph

/-- **The exact accounting of nodes.**

* With any host, a script that compiles consists of sentences, and the number returned is what their
  expressions cost.
* In a reachable graph, that is by how much the number of nodes grows.
* A batch that succeeds creates the nodes that the converted constructs cost, by the scripts that
  they held at the start. The number of nodes grows by these and shrinks by the constructs.
* A batch that fails and is rolled back fails at one of the listed constructs, which cannot be
  replaced. The number of nodes has changed as if the batch had ended before that construct. -/
theorem nodeCount_accounting :
    (∀ (σ : Type) (host : Host σ) (c : Context) (script : String) (st st' : σ) (count : Nat),
      (compileScript c script).run.run host st = (.ok count, st') →
        Program.parse (script ++ "\n") = .ok ⟨(scriptSentences script).map .sentence⟩ ∧
        count = ((scriptSentences script).map fun s => s.value.cost).sum) ∧
    ∀ g : Graph, g.Reachable →
      (∀ c script count g', (compileScript c script).run.run Graph.host g = (.ok count, g') →
        g'.nodeCount = g.nodeCount + count) ∧
      (∀ o report g', (convertAll o).run.run Graph.host g = (.ok report, g') →
        report.nodesCreated = (report.converted.map (g.constructCost o)).sum ∧
        g'.nodeCount + report.converted.length = g.nodeCount + report.nodesCreated) ∧
      ∀ o e g', o.rollback = .failedConstruct →
        (convertAll o).run.run Graph.host g = (.error e, g') →
        ∃ before name after report g₁ e',
          g.listConstructs o.constructKind = before ++ name :: after ∧
          (convertEach o before {}).run.run Graph.host g = (.ok report, g₁) ∧
          ((replaceConstruct ⟨name, o⟩).run.run Graph.host g₁).1 = .error e' ∧
          e = .conversion name e' ∧
          g'.nodeCount + report.converted.length =
            g.nodeCount + (report.converted.map (g.constructCost o)).sum := by
  have hstart : ∀ {g : Graph}, g.Reachable → ∀ o : Options,
      g.Balanced o (g.listConstructs o.constructKind) {} g := fun hg o =>
    .start hg.wellFormed fun _ => Graph.mem_nodes_of_mem_listConstructs
  refine ⟨fun σ host c script st st' count hrun => ?_, fun g hg =>
    ⟨fun c script count g' hrun => ?_, fun o report g' hrun => ?_,
      fun o e g' hpolicy hrun => ?_⟩⟩
  · obtain ⟨created, hnodes, rfl⟩ := Attempt.yields_compileScript.1 hrun
    exact length_created_eq_scriptCost hnodes
  · obtain ⟨created, hcompiled, rfl⟩ := compileScript_eq_ok_iff.1 hrun
    exact hcompiled.footprint.nodeCount_eq
  · rw [Graph.run_convertAll] at hrun
    obtain ⟨hout, rfl⟩ := Prod.mk.inj hrun
    have hbooks := hstart hg o
    have hnodup := g.nodup_listConstructs o.constructKind
    rw [← List.append_nil (g.listConstructs o.constructKind)] at hbooks hnodup
    have hend := hbooks.convertEach hnodup (Prod.ext hout rfl)
    exact ⟨hend.nodesCreated_eq, hend.nodeCount_eq⟩
  · rw [Graph.run_convertAll] at hrun
    obtain ⟨hout, rfl⟩ := Prod.mk.inj hrun
    obtain ⟨before, name, after, report, g₁, hnames, hbefore, hfail⟩ :=
      exists_failed_turn (Prod.ext hout rfl)
    have hbooks := hstart hg o
    have hnodup := g.nodup_listConstructs o.constructKind
    rw [hnames] at hbooks hnodup
    have hmid := hbooks.convertEach hnodup hbefore
    obtain ⟨e', rfl, hreplace⟩ :=
      Graph.replaceConstruct_of_failed_turn (hmid.mem_nodes name (by simp)) hfail
    obtain ⟨targets, hfoot⟩ :=
      Graph.footprint_of_failed_replaceConstruct hmid.wellFormed hpolicy hreplace
    refine ⟨before, name, after, report, g₁, e', hnames, hbefore, congrArg Prod.fst hreplace, rfl,
      ?_⟩
    rw [← hmid.nodesCreated_eq, ← hmid.nodeCount_eq]
    exact congrArg (· + _) hfoot.nodeCount_eq

/-- A construct under the name that the first product would get, before anything is connected to
it. -/
def Graph.unwiredNamesake : Graph :=
  (((((Graph.empty.addNode "ctrl" (.other "transform")).addAttribute ⟨"ctrl", "tx"⟩
    (.double 3.0)).addNode "out" (.other "transform")).addAttribute ⟨"out", "ty"⟩
    (.double 0.0)).addNode "multiplyDivide1" (.other "expression")).addAttribute
    ⟨"multiplyDivide1", "expression"⟩ (.string "out.ty = -sin(.I[0]);")

/-- The same construct with a control connected to its first input. -/
def Graph.namesake : Graph :=
  (unwiredNamesake.addConnection ⟨"ctrl", "tx"⟩ ⟨"multiplyDivide1", "input[0]"⟩).toOption.getD
    unwiredNamesake

/-- After it comes a construct whose second sentence has no target. -/
def Graph.unwiredSuccessor : Graph :=
  (namesake.addNode "z" (.other "expression")).addAttribute ⟨"z", "expression"⟩
    (.string "out.ty = -.I[0]; out.tz = 1;")

/-- The control is connected to both constructs. -/
def Graph.successor : Graph :=
  (unwiredSuccessor.addConnection ⟨"ctrl", "tx"⟩ ⟨"z", "input[0]"⟩).toOption.getD unwiredSuccessor

/-- The first construct costs three nodes. The second one fails after its product got the name of
the first, and nothing of it is left. -/
theorem nodeCount_accounting_successor :
    Graph.successor.Reachable ∧
    ((convertAll {}).run.run Graph.host Graph.namesake).2.nodeCount + 1 =
      Graph.namesake.nodeCount + 3 ∧
    ((convertAll {}).run.run Graph.host Graph.successor).2.nodeCount + 1 =
      Graph.successor.nodeCount + Graph.successor.constructCost {} "multiplyDivide1" ∧
    Graph.successor.constructCost {} "multiplyDivide1" = 3 := by
  have hunwired : Graph.unwiredNamesake.Reachable :=
    .addAttribute _ _ (.addNode _ _ (.addAttribute _ _ (.addNode _ _ (.addAttribute _ _
      (.addNode _ _ .empty)))))
  have hfirst : Graph.namesake.Reachable := hunwired.getD hunwired.addConnection
  have hunwired' : Graph.unwiredSuccessor.Reachable := .addAttribute _ _ (.addNode _ _ hfirst)
  have hsecond : Graph.successor.Reachable := hunwired'.getD hunwired'.addConnection
  obtain ⟨-, hbooks⟩ := nodeCount_accounting
  have hconverts : ((convertAll {}).run.run Graph.host Graph.namesake).1 =
      .ok ⟨["multiplyDivide1"], [], 3⟩ :=
    toOption_eq_some_iff.1 (by decide +kernel)
  have hfails : ((convertAll {}).run.run Graph.host Graph.successor).1 =
      .error (.conversion "z" (.graph (.unknownAttribute ⟨"out", "tz"⟩))) := by
    decide +kernel
  have hlisted : Graph.successor.listConstructs "expression" = ["multiplyDivide1", "z"] := by
    decide +kernel
  have hbefore : ((convertEach {} ["multiplyDivide1"] {}).run.run Graph.host Graph.successor).1 =
      .ok ⟨["multiplyDivide1"], [], 3⟩ :=
    toOption_eq_some_iff.1 (by decide +kernel)
  have hcost : Graph.successor.constructCost {} "multiplyDivide1" = 3 := by decide +kernel
  generalize hrun : (convertAll {}).run.run Graph.host Graph.namesake = out at hconverts ⊢
  generalize hrun' : (convertAll {}).run.run Graph.host Graph.successor = out' at hfails ⊢
  obtain ⟨_, g⟩ := out
  obtain ⟨_, g'⟩ := out'
  obtain rfl := hconverts
  obtain rfl := hfails
  obtain ⟨-, hgrown⟩ := (hbooks _ hfirst).2.1 {} _ _ hrun
  obtain ⟨before, name, after, report, g₁, e', hnames, heach, -, he, hcount⟩ :=
    (hbooks _ hsecond).2.2 {} _ _ rfl hrun'
  obtain ⟨rfl, -⟩ := ConvertError.conversion.inj he
  -- The batch comes to the second construct after the first one was converted.
  obtain rfl : before = ["multiplyDivide1"] := by
    have hsplit := hlisted.symm.trans hnames
    rcases before with _ | ⟨x, _ | ⟨y, rest⟩⟩
    · simp at hsplit
    · rw [(List.cons.inj hsplit).1]
    · simp at hsplit
  rw [heach] at hbefore
  obtain rfl := Except.ok.inj hbefore
  simp only [List.map_cons, List.map_nil, List.sum_cons, List.sum_nil, List.length_singleton,
    Nat.add_zero] at hgrown hcount
  exact ⟨hsecond, hgrown, hcount, hcost⟩

end RigScript
