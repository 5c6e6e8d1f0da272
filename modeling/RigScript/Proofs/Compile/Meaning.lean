import RigScript.Proofs.Compile.Network

/-!
# Compilation preserves meaning

An expression means a number, given the values of the plugs that it reads. `Expr.interpret` is that
meaning, computed on the expression itself. A compiled script leaves a network whose evaluation
agrees with it: after a successful compilation, a plug that a sentence assigns to has the value of
the last expression assigned to it, with every path read in the graph as it is in the end, and it
has no value exactly when that expression has none.

The induction over expressions carries `Graph.Realizes`, which speaks about all later graphs that
keep the new nodes. Nothing that comes later in a script disturbs them: an operation touches only
the nodes it creates, and a sentence only its target, which is on an old node.

## Main definitions

* `RigScript.Expr.interpret`: the meaning of an expression
* `RigScript.Graph.Assigned`: a plug has been assigned to

## Main results

* `RigScript.Build.realizes_lower`: a lowered expression has its meaning
* `RigScript.Build.sentences_frame`: what a list of sentences leaves alone
* `RigScript.compileScript_preserves_meaning`: **compilation preserves meaning**
-/

namespace RigScript

/-! ### The meaning of an expression -/

/-- The number that an expression folds to: a number under brackets and signs. -/
def Expr.literal? : Expr → Option Float
  | .number x => some x
  | .brackets e => e.literal?
  | .unary .plus e => e.literal?
  | .unary .minus e => e.literal?.map fun x => -x
  | _ => none

/-- The meaning of an operation on two numbers. A remainder depends on the right operand as it is
written: `divisor?` is the number that it folds to. Comparisons have no meaning. -/
def BinaryOp.interpret (epsilon : Float) (divisor? : Option Float) (x y : Float) :
    BinaryOp → Option Float
  | .add => some (x + y)
  | .subtract => some (x - y)
  | .multiply => some (x * y)
  | .divide => some (x / y)
  | .modulo => divisor?.map fun divisor => (remainderCurve epsilon divisor).sample x
  | .equal => none
  | .unequal => none

/-- The meaning of a function on numbers. The smaller one is found after the first was raised to the
least finite number, and the greater one is lowered to the greatest. A sine is a component of a
rotation about one axis, whose angle is doubled and halved again. -/
def Builtin.interpret : Builtin → List Float → Option Float
  | .min, [x, y] =>
    let raised := if x.isNaN ∨ x < -largestFloat then -largestFloat else x
    some (if y < raised then y else raised)
  | .max, [x, y] =>
    let raised := if x.isNaN ∨ x < y then y else x
    some (if raised.isNaN ∨ largestFloat < raised then largestFloat else raised)
  | .sin, [x] =>
    let angle := x * 2.0 / 2.0
    some (angle.sin * Float.cos 0.0 * Float.cos 0.0 - angle.cos * Float.sin 0.0 * Float.sin 0.0)
  | _, _ => none

/-- The smaller of two numbers is what a clamp with the second as its upper bound computes. -/
theorem Builtin.interpret_min (x y : Float) :
    Builtin.min.interpret [x, y] = some (clampNumber x (-largestFloat) y) := by
  have hraised : (if x.isNaN ∨ x < -largestFloat then -largestFloat else x).isNaN = false := by
    split
    · decide +kernel
    · next h => exact Bool.eq_false_iff.2 (not_or.1 h).1
  rw [clampNumber_eq rfl]
  simp only [interpret, hraised, Bool.false_eq_true, false_or]

/-- The greater of two numbers is what a clamp with the second as its lower bound computes. -/
theorem Builtin.interpret_max (x y : Float) :
    Builtin.max.interpret [x, y] = some (clampNumber x y largestFloat) := by
  rw [clampNumber_eq rfl]
  rfl

/-- A sine is the first component of the quaternion of twice the angle. -/
theorem Builtin.interpret_sin (x : Float) :
    Builtin.sin.interpret [x] = some (quaternionX (x * 2.0) 0.0 0.0) := by
  have hzero : (0.0 : Float) / 2.0 = 0.0 := by decide +kernel
  simp only [interpret, quaternionX, hzero]

mutual

/-- **The meaning of an expression**, where paths are read in a given graph. A sign on what folds
to a number changes the sign of that number, and any other one multiplies by minus one. -/
def Expr.interpret (c : Context) (g : Graph) : Expr → Option Float
  | .number x => some x
  | .path text => (c.resolve text).toOption.bind g.number?
  | .brackets e => e.interpret c g
  | .unary .plus e => e.interpret c g
  | .unary .minus e =>
    match e.literal? with
    | some x => some (-x)
    | none => do return (← e.interpret c g) * (-1.0)
  | .binary op left right => do
    op.interpret c.options.moduloEpsilon right.literal? (← left.interpret c g)
      (← right.interpret c g)
  | .call name args => do
    let f ← Builtin.ofName? name
    f.interpret (← Expr.interpretAll c g args)

/-- The meanings of several expressions, if they all have one. -/
def Expr.interpretAll (c : Context) (g : Graph) : List Expr → Option (List Float)
  | [] => some []
  | e :: es => do return (← e.interpret c g) :: (← Expr.interpretAll c g es)

end

/-! ### Lowering -/

namespace Build

open RigScript.Graph

variable {c : Context} {names names' : List String} {g g' : Graph} {a b o : Operand}

/-- **An operation on two operands.** -/
theorem realizes_combine {op : BinaryOp} (hg : g.WellFormed)
    (h : (combine c op a b).Yields Graph.host names g o names' g') :
    o.constant? = none ∧ g.Realizes g' o.number? fun later => (do
      op.interpret c.options.moduloEpsilon b.constant? (← a.number? later)
        (← b.number? later)) := by
  cases op with
  | add => exact realizes_plusMinus hg h
  | subtract => exact realizes_plusMinus hg h
  | multiply => exact realizes_multiplyDivide hg h
  | divide => exact realizes_multiplyDivide hg h
  | modulo =>
      obtain ⟨divisor, rfl, hplug, hreal⟩ := realizes_modulo hg h
      exact ⟨hplug, hreal⟩
  | equal => exact absurd h not_yields_throw
  | unequal => exact absurd h not_yields_throw

/-- **A function applied to operands.** -/
theorem realizes_apply {name : String} {f : Builtin} {operands : List Operand}
    (hg : g.WellFormed) (h : (apply name f operands).Yields Graph.host names g o names' g') :
    o.constant? = none ∧ g.Realizes g' o.number? fun later => (do
      f.interpret (← operands.mapM fun a => a.number? later)) := by
  unfold apply at h
  split at h
  · next value bound =>
    obtain ⟨hplug, hreal⟩ := realizes_boundedAbove hg h
    refine ⟨hplug, hreal.congr fun later => ?_⟩
    simp only [List.mapM_cons, List.mapM_nil]
    cases value.number? later with
    | none => rfl
    | some x =>
        cases bound.number? later with
        | none => rfl
        | some y => exact (Builtin.interpret_min x y).symm
  · next value bound =>
    obtain ⟨hplug, hreal⟩ := realizes_boundedBelow hg h
    refine ⟨hplug, hreal.congr fun later => ?_⟩
    simp only [List.mapM_cons, List.mapM_nil]
    cases value.number? later with
    | none => rfl
    | some x =>
        cases bound.number? later with
        | none => rfl
        | some y => exact (Builtin.interpret_max x y).symm
  · next angle =>
    obtain ⟨hplug, hreal⟩ := realizes_sine hg h
    refine ⟨hplug, hreal.congr fun later => ?_⟩
    simp only [List.mapM_cons, List.mapM_nil]
    cases angle.number? later with
    | none => rfl
    | some x => exact (Builtin.interpret_sin x).symm
  · exact absurd h not_yields_throw

/-- **A changed sign.** -/
theorem realizes_negate (hg : g.WellFormed)
    (h : (negate a).Yields Graph.host names g o names' g') :
    o.constant? = a.constant?.map (fun x => -x) ∧ g.Realizes g' o.number? fun later =>
      match a.constant? with
      | some x => some (-x)
      | none => do return (← a.number? later) * (-1.0) := by
  cases a with
  | constant x =>
      obtain ⟨rfl, -, rfl⟩ := yields_pure.1 h
      exact ⟨rfl, .refl g _⟩
  | plug p =>
      obtain ⟨hplug, hreal⟩ := realizes_multiplyDivide hg h
      exact ⟨hplug, hreal⟩

/-- What a call names, when the number of arguments fits. -/
theorem yields_checkCall {σ : Type} {host : Host σ} {s s' : σ} {name : String} {found : Nat}
    {f : Builtin} (h : (checkCall name found).Yields host names s f names' s') :
    Builtin.ofName? name = some f ∧ s = s' := by
  unfold checkCall at h
  split at h
  · exact absurd h not_yields_throw
  · next f' hf =>
    split at h
    · obtain ⟨rfl, -, rfl⟩ := yields_pure.1 h
      exact ⟨hf, rfl⟩
    · exact absurd h not_yields_throw

/-- The plug of a path. -/
theorem yields_resolve {σ : Type} {host : Host σ} {s s' : σ} {path : String} {p : Plug}
    (h : (resolve c path).Yields host names s p names' s') :
    c.resolve path = .ok p ∧ s = s' := by
  unfold resolve at h
  split at h
  · next p' hp =>
    obtain ⟨rfl, -, rfl⟩ := yields_pure.1 h
    exact ⟨hp, rfl⟩
  · exact absurd h not_yields_throw

mutual

/-- **A lowered expression has its meaning**, in every later graph that keeps the nodes built for
it, and it is a number exactly when the expression folds to that number. -/
theorem realizes_lower {names names' : List String} {g g' : Graph} {a : Operand} (e : Expr)
    (hg : g.WellFormed) (h : (lower c e).Yields Graph.host names g a names' g') :
    a.constant? = e.literal? ∧ g.Realizes g' a.number? fun later => e.interpret c later := by
  match e with
  | .number x =>
      obtain ⟨rfl, -, rfl⟩ := yields_pure.1 h
      exact ⟨rfl, .refl g _⟩
  | .path text =>
      obtain ⟨p, _, _, hresolve, h⟩ := yields_bind.1 h
      obtain ⟨rfl, -, rfl⟩ := yields_pure.1 h
      obtain ⟨hp, rfl⟩ := yields_resolve hresolve
      refine ⟨rfl, (Realizes.refl g _).congr fun later => ?_⟩
      rw [Expr.interpret, hp]
      rfl
  | .brackets e =>
      obtain ⟨hlit, hreal⟩ := realizes_lower e hg h
      exact ⟨hlit, hreal⟩
  | .unary .plus e =>
      obtain ⟨hlit, hreal⟩ := realizes_lower e hg h
      exact ⟨hlit, hreal⟩
  | .unary .minus e =>
      obtain ⟨b, _, g₁, hb, h⟩ := yields_bind.1 h
      obtain ⟨hlit, hreal⟩ := realizes_lower e hg hb
      obtain ⟨hlit', hreal'⟩ := realizes_negate (hb.wellFormed hg) h
      refine ⟨?_, ?_⟩
      · rw [hlit', hlit, Expr.literal?]
      · rw [hlit] at hreal'
        have hboth := hreal.comp (f := fun v => match e.literal? with
          | some x => some (-x)
          | none => do return (← v) * (-1.0)) hreal'
        exact hboth.congr fun later => by rw [Expr.interpret]
  | .binary op left right =>
      have hlower : (do
          let a ← lower c left
          let b ← lower c right
          combine c op a b : Build Operand).Yields Graph.host names g a names' g' := by
        cases op with
        | equal => exact absurd h not_yields_throw
        | unequal => exact absurd h not_yields_throw
        | _ => exact h
      obtain ⟨l, _, g₁, hl, hlower⟩ := yields_bind.1 hlower
      obtain ⟨r, _, g₂, hr, hlower⟩ := yields_bind.1 hlower
      have hg₁ := hl.wellFormed hg
      obtain ⟨-, hleft⟩ := realizes_lower left hg hl
      obtain ⟨hlit, hright⟩ := realizes_lower right hg₁ hr
      obtain ⟨hplug, hreal⟩ := realizes_combine (hr.wellFormed hg₁) hlower
      rw [hlit] at hreal
      have hboth := (hleft.prod hright).comp (f := fun v => do
        op.interpret c.options.moduloEpsilon right.literal? (← v.1) (← v.2)) hreal
      exact ⟨hplug, hboth.congr fun later => by rw [Expr.interpret]⟩
  | .call name args =>
      obtain ⟨f, _, _, hcheck, h⟩ := yields_bind.1 h
      obtain ⟨hf, rfl⟩ := yields_checkCall hcheck
      obtain ⟨operands, _, g₁, hargs, h⟩ := yields_bind.1 h
      have hoperands := realizes_lowerAll args hg hargs
      obtain ⟨hplug, hreal⟩ := realizes_apply (hargs.wellFormed hg) h
      have hboth := hoperands.comp (f := fun v => do f.interpret (← v)) hreal
      refine ⟨hplug, hboth.congr fun later => ?_⟩
      rw [Expr.interpret, hf]
      rfl

/-- Expressions lowered from left to right all have their meanings. -/
theorem realizes_lowerAll {names names' : List String} {g g' : Graph} {as : List Operand}
    (es : List Expr) (hg : g.WellFormed)
    (h : (lowerAll c es).Yields Graph.host names g as names' g') :
    g.Realizes g' (fun later => as.mapM fun a => a.number? later)
      fun later => Expr.interpretAll c later es := by
  match es with
  | [] =>
      obtain ⟨rfl, -, rfl⟩ := yields_pure.1 h
      exact .refl g _
  | e :: es =>
      obtain ⟨a, _, g₁, ha, h⟩ := yields_bind.1 h
      obtain ⟨as, _, g₂, has, h⟩ := yields_bind.1 h
      obtain ⟨rfl, -, rfl⟩ := yields_pure.1 h
      have hboth := (realizes_lower e hg ha).2.prod (realizes_lowerAll es (ha.wellFormed hg) has)
      have hcons := hboth.map fun v => (do return (← v.1) :: (← v.2) : Option (List Float))
      simp only [List.mapM_cons]
      exact hcons.congr fun later => by rw [Expr.interpretAll]

end

end Build

/-! ### Sentences -/

namespace Graph

variable {g g' g'' : Graph} {p q : Plug} {r : Recipe}

/-- The plug `p` has been **assigned to**: only its node is touched, kinds are kept, and as far as
plugs other than outputs are concerned, it has the recipe `r` and no other recipe has changed. -/
structure Assigned (g g' : Graph) (p : Plug) (r : Recipe) : Prop where
  agree : AgreeOn (· ≠ p.node) g g'
  kind?_eq : ∀ name, g'.kind? name = g.kind? name
  recipe_self : ¬ g.IsOutput p → g'.recipe p = .ok r
  recipe_of_ne : ∀ q, q ≠ p → ¬ g.IsOutput q → g'.recipe q = g.recipe q

/-- Lifting a lock changes no recipe. -/
theorem recipe_setLocked {locked : Bool} (h : g.perform (.setLocked p locked) = .ok ((), g')) :
    AgreeOn (· ≠ p.node) g g' ∧ (∀ name, g'.kind? name = g.kind? name) ∧
      ∀ q, g'.recipe q = g.recipe q := by
  obtain ⟨n, hn, rfl⟩ := perform_setLocked.1 h
  obtain ⟨hnode, -⟩ := checkAttr_eq_ok_iff.1 hn
  refine ⟨agreeOn_putNode g p.node _ _, fun name => kind?_putNode hnode (by rfl) _ name, ?_⟩
  intro q
  by_cases hq : q.node = p.node
  · rw [← hq] at hnode ⊢
    exact recipe_putNode hnode (by rfl) (by rfl) _
  · exact (agreeOn_putNode g p.node _ _).recipe_eq hq

/-- Removing the connection to a plug changes no recipe but its own. -/
theorem recipe_disconnect (h : g.perform (.disconnect p) = .ok ((), g')) :
    AgreeOn (· ≠ p.node) g g' ∧ (∀ name, g'.kind? name = g.kind? name) ∧
      ∀ q, q ≠ p → g'.recipe q = g.recipe q := by
  obtain ⟨-, rfl⟩ := perform_disconnect.1 h
  refine ⟨agreeOn_eraseConnection g p _, fun _ => rfl, fun q hne => ?_⟩
  have hcmp : ¬ compare p q = .eq := by
    rw [Std.LawfulEqOrd.compare_eq_iff_eq]
    exact hne.symm
  simp only [recipe, Std.ExtTreeMap.getElem?_erase, if_neg hcmp, node]

/-- An assignment that comes after a step which only prepared the plug. -/
theorem Assigned.after (h : g'.Assigned g'' p r)
    (hprep : AgreeOn (· ≠ p.node) g g' ∧ (∀ name, g'.kind? name = g.kind? name) ∧
      ∀ q, q ≠ p → g'.recipe q = g.recipe q) : g.Assigned g'' p r := by
  obtain ⟨hagree, hkind, hrecipe⟩ := hprep
  refine ⟨hagree.trans h.agree, fun name => (h.kind?_eq name).trans (hkind name), ?_, ?_⟩
  · intro hout
    exact h.recipe_self fun hout' => hout ((isOutput_congr (hkind _)).1 hout')
  · intro q hne hout
    rw [h.recipe_of_ne q hne fun hout' => hout ((isOutput_congr (hkind _)).1 hout'),
      hrecipe q hne]

end Graph

namespace Build

open RigScript.Graph

variable {c : Context} {names names' : List String} {g g' : Graph}

/-- **An assignment** gives the plug the recipe of the operand. -/
theorem assigned_assign {dest : Plug} {a : Operand}
    (h : (assign dest a).Yields Graph.host names g () names' g') :
    g.Assigned g' dest a.recipe := by
  cases a with
  | constant x =>
      obtain ⟨⟨⟩, _, g₁, hdis, h⟩ := yields_bind.1 h
      have hset := (yields_ask_graph.1 h).1
      have hwrite : g₁.Assigned g' dest (.stored x) := by
        refine ⟨(agreeOn_setAttribute hset).1, (agreeOn_setAttribute hset).2, ?_, ?_⟩
        · intro hout
          exact recipe_setAttribute_self hset rfl fun k hk hmem => hout ⟨k, hk, hmem⟩
        · intro q hne hout
          by_cases hsame : q.node = dest.node
          · refine recipe_setAttribute_of_ne hset hne fun k hk => .inr fun hmem => ?_
            exact hout ⟨k, hsame ▸ hk, hmem⟩
          · exact (agreeOn_setAttribute hset).1.recipe_eq hsame
      exact hwrite.after (recipe_disconnect (yields_ask_graph.1 hdis).1)
  | plug p =>
      have hwire := rewired_connect (yields_ask_graph.1 h).1
      exact ⟨hwire.agree, hwire.kind?_eq, fun _ => hwire.recipe_self,
        fun q hne _ => hwire.recipe_of_ne q hne⟩

/-- The target of a sentence is a plug of a node that is there. -/
theorem yields_destination {target : String} {dest : Plug}
    (h : (destination c target).Yields Graph.host names g dest names' g') :
    c.resolve target = .ok dest ∧ g = g' := by
  obtain ⟨p, _, _, hresolve, h⟩ := yields_bind.1 h
  obtain ⟨hp, rfl⟩ := yields_resolve hresolve
  obtain ⟨v, _, _, hget, hcheck⟩ := yields_bind.1 h
  obtain ⟨-, rfl⟩ := perform_getAttribute.1 (yields_ask_graph.1 hget).1
  split at hcheck
  · obtain ⟨rfl, -, rfl⟩ := yields_pure.1 hcheck
    exact ⟨hp, rfl⟩
  · exact absurd hcheck not_yields_throw

/-- **One sentence** builds the network of its expression and then assigns it to the target. -/
theorem sentence_assigned {s : Sentence} (hg : g.WellFormed)
    (h : (sentence c s).Yields Graph.host names g () names' g') :
    ∃ (dest : Plug) (a : Operand) (built : Graph), c.resolve s.target = .ok dest ∧
      g.Realizes built a.number? (fun later => s.value.interpret c later) ∧
      built.Assigned g' dest a.recipe := by
  obtain ⟨dest, _, _, hdest, h⟩ := yields_bind.1 h
  obtain ⟨hresolve, rfl⟩ := yields_destination hdest
  obtain ⟨a, _, built, hlower, h⟩ := yields_bind.1 h
  obtain ⟨locked, _, _, hlocked, hassign⟩ := yields_bind.1 h
  obtain ⟨-, rfl⟩ := perform_isLocked.1 (yields_ask_graph.1 hlocked).1
  refine ⟨dest, a, _, hresolve, (realizes_lower s.value hg hlower).2, ?_⟩
  split at hassign
  · obtain ⟨⟨⟩, _, _, hunlock, hassign⟩ := yields_bind.1 hassign
    obtain ⟨hagree, hkind, hrecipe⟩ :=
      recipe_setLocked (yields_ask_graph.1 hunlock).1
    exact (assigned_assign hassign).after ⟨hagree, hkind, fun q _ => hrecipe q⟩
  · exact assigned_assign hassign

/-- **What a list of sentences leaves alone**, when all targets are on nodes that `base` picks:
nodes other than those, kinds, and the recipes of plugs that are no targets and no outputs. -/
theorem sentences_frame (base : String → Prop) {ss : List Sentence} (hg : g.WellFormed)
    (hbase : ∀ name, base name → name ∈ g.nodes)
    (hss : ∀ s ∈ ss, ∀ t, c.resolve s.target = .ok t → base t.node)
    (h : (sentences c ss).Yields Graph.host names g () names' g') :
    AgreeOn (fun name => name ∈ g.nodes ∧ ¬ base name) g g' ∧
    (∀ name ∈ g.nodes, g'.kind? name = g.kind? name) ∧
    ∀ q : Plug, q.node ∈ g.nodes → ¬ g.IsOutput q →
      (∀ s ∈ ss, c.resolve s.target ≠ .ok q) → g'.recipe q = g.recipe q := by
  induction ss generalizing names g with
  | nil =>
      obtain ⟨-, -, rfl⟩ := yields_pure.1 h
      exact ⟨.refl _ g, fun _ _ => rfl, fun _ _ _ _ => rfl⟩
  | cons s ss ih =>
      obtain ⟨⟨⟩, _, g₁, hs, h⟩ := yields_bind.1 h
      obtain ⟨dest, a, built, hdest, hreal, hassigned⟩ := sentence_assigned hg hs
      have hdestBase := hss s (by simp) dest hdest
      have hkind : ∀ name ∈ g.nodes, g₁.kind? name = g.kind? name := fun name hname =>
        (hassigned.kind?_eq name).trans (hreal.grown.kind?_eq hname)
      have hmem : ∀ name ∈ g.nodes, name ∈ g₁.nodes := fun name hname => by
        rw [mem_nodes_iff_isSome_kind?] at hname ⊢
        rwa [hkind name (mem_nodes_iff_isSome_kind?.2 hname)]
      obtain ⟨hagree, hkinds, hrecipes⟩ := ih (hs.wellFormed hg)
        (fun name hname => hmem name (hbase name hname))
        (fun s' hs' => hss s' (List.mem_cons_of_mem s hs')) h
      refine ⟨?_, ?_, ?_⟩
      · -- A node that is no base node is not the target's, and is kept by each part in turn.
        have hbuilt : AgreeOn (fun name => name ∈ g.nodes ∧ ¬ base name) g built :=
          hreal.grown.mono fun _ hname => hname.1
        refine (hbuilt.trans (hassigned.agree.mono ?_)).trans (hagree.mono ?_)
        · rintro name ⟨-, hnot⟩ rfl
          exact hnot hdestBase
        · exact fun name ⟨hname, hnot⟩ => ⟨hmem name hname, hnot⟩
      · intro name hname
        rw [hkinds name (hmem name hname), hkind name hname]
      · intro q hq hout hne
        have hout₁ : ¬ g₁.IsOutput q := fun h' => hout ((isOutput_congr (hkind _ hq)).1 h')
        have houtb : ¬ built.IsOutput q := fun h' =>
          hout ((isOutput_congr (hreal.grown.kind?_eq hq)).1 h')
        have hq_ne : q ≠ dest := by
          rintro rfl
          exact hne s (by simp) hdest
        rw [hrecipes q (hmem _ hq) hout₁ fun s' hs' => hne s' (List.mem_cons_of_mem s hs'),
          hassigned.recipe_of_ne q hq_ne houtb, hreal.grown.recipe_eq hq]

/-- Two lists of sentences are compiled one after the other. -/
theorem yields_sentences_append {ss₁ ss₂ : List Sentence} :
    (sentences c (ss₁ ++ ss₂)).Yields Graph.host names g () names' g' ↔
      ∃ mid g₁, (sentences c ss₁).Yields Graph.host names g () mid g₁ ∧
        (sentences c ss₂).Yields Graph.host mid g₁ () names' g' := by
  induction ss₁ generalizing names g with
  | nil =>
      constructor
      · intro h
        exact ⟨names, g, yields_pure.2 ⟨rfl, rfl, rfl⟩, h⟩
      · rintro ⟨mid, g₁, hnil, h⟩
        obtain ⟨-, rfl, rfl⟩ := yields_pure.1 hnil
        exact h
  | cons s ss ih =>
      simp only [List.cons_append, sentences, yields_bind]
      constructor
      · rintro ⟨⟨⟩, mid, g₁, hs, h⟩
        obtain ⟨mid', g₂, h₁, h₂⟩ := ih.1 h
        exact ⟨mid', g₂, ⟨⟨⟩, mid, g₁, hs, h₁⟩, h₂⟩
      · rintro ⟨mid', g₂, ⟨⟨⟩, mid, g₁, hs, h₁⟩, h₂⟩
        exact ⟨⟨⟩, mid, g₁, hs, ih.2 ⟨mid', g₂, h₁, h₂⟩⟩

/-- **The last assignment counts.** -/
theorem number?_of_last {before after : List Sentence} {s : Sentence} {t : Plug}
    (hg : g.WellFormed)
    (h : (sentences c (before ++ s :: after)).Yields Graph.host names g () names' g')
    (htargets : ∀ s' ∈ before ++ s :: after, ∀ u, c.resolve s'.target = .ok u →
      u.node ∈ g.nodes)
    (ht : c.resolve s.target = .ok t) (hlast : ∀ s' ∈ after, c.resolve s'.target ≠ .ok t)
    (hout : ¬ g.IsOutput t) : g'.number? t = s.value.interpret c g' := by
  obtain ⟨_, g₁, hbefore, h⟩ := yields_sentences_append.1 h
  obtain ⟨⟨⟩, _, g₂, hs, hafter⟩ := yields_bind.1 h
  have hg₁ := hbefore.wellFormed hg
  obtain ⟨-, hkind₁, -⟩ := sentences_frame (· ∈ g.nodes) hg (fun _ hn => hn)
    (fun s' hs' => htargets s' (by simp [hs'])) hbefore
  obtain ⟨dest, a, built, hdest, hreal, hassigned⟩ := sentence_assigned hg₁ hs
  obtain rfl : t = dest := by simpa [ht] using hdest
  have hmem₁ : ∀ name ∈ g.nodes, name ∈ g₁.nodes := fun name hname => by
    rw [mem_nodes_iff_isSome_kind?] at hname ⊢
    rwa [hkind₁ name (mem_nodes_iff_isSome_kind?.2 hname)]
  have hmem₂ : ∀ name ∈ built.nodes, name ∈ g₂.nodes := fun name hname => by
    rw [mem_nodes_iff_isSome_kind?] at hname ⊢
    rwa [hassigned.kind?_eq]
  have hmemt : t.node ∈ g₁.nodes := hmem₁ _ (htargets s (by simp) t ht)
  obtain ⟨hagree, -, hrecipe⟩ := sentences_frame (· ∈ g.nodes) (hs.wellFormed hg₁)
    (fun name hname => hmem₂ name (hreal.grown.mem_nodes (hmem₁ name hname)))
    (fun s' hs' => htargets s' (by simp [hs'])) hafter
  -- The target is an output in none of the graphs on the way.
  have houtb : ¬ built.IsOutput t := fun h' => hout <| (isOutput_congr
    ((hreal.grown.kind?_eq hmemt).trans (hkind₁ _ (htargets s (by simp) t ht)))).1 h'
  have hout₂ : ¬ g₂.IsOutput t := fun h' => houtb ((isOutput_congr (hassigned.kind?_eq _)).1 h')
  have hfinal : g'.recipe t = .ok a.recipe := by
    rw [hrecipe t (hmem₂ _ (hreal.grown.mem_nodes hmemt)) hout₂ hlast, hassigned.recipe_self houtb]
  -- What was built for the expression is on new nodes, which no target is on.
  have hkept : KeepsBuilt g₁ built g' := by
    refine AgreeOn.trans (hassigned.agree.mono ?_) (hagree.mono ?_)
    · rintro name ⟨-, hnew⟩ rfl
      exact hnew hmemt
    · rintro name ⟨hname, hnew⟩
      exact ⟨hmem₂ name hname, fun hold => hnew (hmem₁ name hold)⟩
  rw [number?_of_recipe hfinal, a.eval?_recipe, hreal.read_eq g' hkept]

end Build

/-- A script of sentences only has these as its sentences. -/
theorem Program.sentences?_eq_some {p : Program} {ss : List Sentence}
    (h : p.segments = ss.map .sentence) : p.sentences? = some ss := by
  rw [Program.sentences?, h]
  clear h
  induction ss with
  | nil => rfl
  | cons s ss ih =>
      rw [List.map_cons, List.mapM_cons, ih]
      rfl

/-- **Compilation preserves meaning.** Let a script be compiled on a reachable graph `g` into `g'`,
with all its targets on nodes of `g`. A plug `t` that is a target and no output of a computing node
then has the value of the last expression assigned to it, with paths read in `g'`: it evaluates to
a number exactly when the expression means that number. -/
theorem compileScript_preserves_meaning {c : Context} {script : String} {p : Program}
    {g g' : Graph} {count : Nat} {before after : List Sentence} {s : Sentence} {t : Plug}
    (hg : g.Reachable) (hparse : Program.parse (script ++ "\n") = .ok p)
    (hrun : (compileScript c script).run.run Graph.host g = (.ok count, g'))
    (hp : p.segments = (before ++ s :: after).map .sentence)
    (htargets : ∀ s' ∈ before ++ s :: after, ∀ u, c.resolve s'.target = .ok u →
      u.node ∈ g.nodes)
    (ht : c.resolve s.target = .ok t) (hlast : ∀ s' ∈ after, c.resolve s'.target ≠ .ok t)
    (hout : ¬ g.IsOutput t) (x : Float) :
    g'.evaluate t = .ok x ↔ s.value.interpret c g' = some x := by
  obtain ⟨created, hnodes, -⟩ := Attempt.yields_compileScript.1 hrun
  obtain ⟨p', hparse', hbuild⟩ := Attempt.yields_compileNodes.1 hnodes
  obtain rfl : p = p' := by simpa [hparse] using hparse'
  rw [Build.program, Program.sentences?_eq_some hp] at hbuild
  rw [← Graph.number?_eq_some_iff,
    Build.number?_of_last hg.wellFormed hbuild htargets ht hlast hout]

/-- A control whose translation is three, and a node to be driven. -/
def Graph.controlled : Graph :=
  (((Graph.empty.addNode "ctrl" (.other "transform")).addAttribute ⟨"ctrl", "tx"⟩
    (.double 3.0)).addNode "out" (.other "transform")).addAttribute ⟨"out", "ty"⟩ (.double 0.0)

theorem Graph.reachable_controlled : controlled.Reachable :=
  .addAttribute _ _ (.addNode _ _ (.addAttribute _ _ (.addNode _ _ .empty)))

/-- The two sentences of `out.ty = 5; out.ty = max(-ctrl.tx, 2) * 2;`. -/
def constantThenControl : List Sentence :=
  [⟨"out.ty", .number 5.0⟩, ⟨"out.ty", .binary .multiply
    (.call "max" [.unary .minus (.path "ctrl.tx"), .number 2.0]) (.number 2.0)⟩]

/-- The second of two assignments to one plug counts, and it reads the control. -/
theorem compileScript_preserves_meaning_controlled :
    ((compileScript ⟨"e", {}⟩ "out.ty = 5; out.ty = max(-ctrl.tx, 2) * 2;").run.run Graph.host
      Graph.controlled).2.evaluate ⟨"out", "ty"⟩ = .ok 4.0 := by
  have hparse : Program.parse ("out.ty = 5; out.ty = max(-ctrl.tx, 2) * 2;" ++ "\n") =
      .ok ⟨constantThenControl.map .sentence⟩ :=
    toOption_eq_some_iff.1 (by decide +kernel)
  have hrun : (compileScript ⟨"e", {}⟩ "out.ty = 5; out.ty = max(-ctrl.tx, 2) * 2;").run.run
      Graph.host Graph.controlled = (.ok 3, _) :=
    Prod.ext (toOption_eq_some_iff.1 (by decide +kernel)) rfl
  have hresolve : (⟨"e", {}⟩ : Context).resolve "out.ty" = .ok ⟨"out", "ty"⟩ :=
    toOption_eq_some_iff.1 (by decide +kernel)
  have hsplit : constantThenControl =
      constantThenControl.take 1 ++ constantThenControl.get ⟨1, by decide⟩ :: [] := rfl
  refine (compileScript_preserves_meaning Graph.reachable_controlled hparse hrun
    (congrArg (List.map Segment.sentence) hsplit) ?_ hresolve (by simp) ?_ 4.0).2 ?_
  · intro s hs u hu
    have htarget : s.target = "out.ty" := by
      have hall : ∀ s ∈ constantThenControl, s.target = "out.ty" := by decide
      exact hall s (hsplit ▸ hs)
    rw [htarget, hresolve] at hu
    cases hu
    decide +kernel
  · rintro ⟨k, hk, hmem⟩
    have hkind : Graph.controlled.kind? "out" = some (.other "transform") := by decide +kernel
    obtain rfl : NodeKind.other "transform" = k := by simpa [hkind] using hk
    cases hmem
  · decide +kernel

end RigScript
