import Mathlib.Data.Option.Basic
import RigScript.Proofs.Graph.Frame

/-!
# Networks that can be interchanged

Two graphs have some nodes in common, and each has nodes of its own besides. On the common nodes
they store the same, but a common plug may be connected to one network in one graph and to another
network in the other graph. As long as both networks mean the same, whatever the values of the
common plugs are, the common plugs have the same values in both graphs.

Common plugs may feed the networks that they are fed by, so the values cannot be compared one after
the other. They are the least values that satisfy all recipes. Freezing the common plugs at their
values in the second graph leaves a graph whose values satisfy all recipes of the first one: so the
values there are no others.

## Main definitions

* `RigScript.Graph.freeze`: a graph in which some nodes hold given numbers
* `RigScript.Graph.Means`: what a plug means, however the common plugs are fed
* `RigScript.Graph.Interchangeable`: common plugs are fed by networks that mean the same

## Main results

* `RigScript.Graph.number?_least`: values are the least ones that satisfy all recipes
* `RigScript.Graph.Interchangeable.number?_eq`: **common plugs have the same values**
-/

namespace RigScript

/-! ### Least values -/

/-- A recipe whose needs have values gives the value that it denotes. -/
theorem Recipe.Denotes.eval?_eq {val : Plug → Option Float} {P : Plug → Float → Prop} {r : Recipe}
    {x : Float} (h : r.Denotes P x) (hP : ∀ q y, P q y → val q = some y) :
    r.eval? val = some x := by
  have hval : r.Denotes (fun q y => val q = some y) x := h.mono fun q _ y => hP q y
  cases r <;> simpa [Recipe.Denotes, Recipe.eval?, Option.bind_eq_some_iff] using hval

/-- A recipe looks only at its needs. -/
theorem Recipe.eval?_congr {val val' : Plug → Option Float} {r : Recipe}
    (h : ∀ q ∈ r.needs, val q = val' q) : r.eval? val = r.eval? val' := by
  cases r <;> simp_all [Recipe.eval?, Recipe.needs]

namespace Graph

variable {g g₁ g₂ : Graph} {p : Plug}

/-- **Values are the least ones that satisfy all recipes.** -/
theorem number?_least {val : Plug → Option Float}
    (hval : ∀ p r x, g.recipe p = .ok r → r.eval? val = some x → val p = some x) {x : Float}
    (h : g.number? p = some x) : val p = some x := by
  rw [number?_eq_some_iff, evaluate_eq_ok_iff] at h
  refine h.recipe_induction (motive := fun p x => val p = some x) fun p r x hr hd => ?_
  exact hval p r x hr (hd.eval?_eq fun _ _ => And.right)

/-- The plugs that may have a value: those with a connection, the outputs of the nodes, and what
the nodes store. -/
def plugs (g : Graph) : List Plug :=
  g.connections.keys ++ g.nodes.toList.flatMap fun e =>
    (e.2.kind.outputs ++ e.2.attributes.keys).map fun attr => ⟨e.1, attr⟩

theorem mem_plugs_of_number? {x : Float} (h : g.number? p = some x) : p ∈ g.plugs := by
  rw [number?_eq_some_iff, evaluate_eq_ok_iff, hasValue_iff] at h
  obtain ⟨r, hr, -⟩ := h
  have hnode : ∀ n, g.nodes[p.node]? = some n → p.attr ∈ n.kind.outputs ++ n.attributes.keys →
      p ∈ g.plugs := by
    intro n hn hattr
    refine List.mem_append_right _ (List.mem_flatMap.2 ⟨(p.node, n), ?_, ?_⟩)
    · exact Std.ExtTreeMap.mem_toList_iff_getElem?_eq_some.2 hn
    · exact List.mem_map.2 ⟨p.attr, hattr, rfl⟩
  obtain ⟨source, hs, -⟩ | ⟨-, n, hn, hf | ⟨-, v, y, hv, -, -⟩⟩ := recipe_cases hr
  · refine List.mem_append_left _ (Std.ExtTreeMap.mem_keys.2 ?_)
    exact Std.ExtTreeMap.mem_iff_isSome_getElem?.2 (Option.isSome_iff_exists.2 ⟨source, hs⟩)
  · exact hnode n hn (List.mem_append_left _ (Node.mem_outputs_of_formula? hf))
  · refine hnode n hn (List.mem_append_right _ (Std.ExtTreeMap.mem_keys.2 ?_))
    exact Std.ExtTreeMap.mem_iff_isSome_getElem?.2 (Option.isSome_iff_exists.2 ⟨v, hv⟩)

/-! ### Freezing -/

/-- The attributes of a node that stores the given numbers, as far as they are for some plugs. -/
def storing (values : Plug → Option Float) (name : String) :
    List Plug → Std.ExtTreeMap String Value
  | [] => ∅
  | p :: ps =>
    match values p with
    | some x =>
      if p.node = name then (storing values name ps).insert p.attr (.double x)
      else storing values name ps
    | none => storing values name ps

theorem getElem?_storing (values : Plug → Option Float) (ps : List Plug) (p : Plug) :
    (storing values p.node ps)[p.attr]? =
      if p ∈ ps then (values p).map Value.double else none := by
  induction ps with
  | nil => simp [storing]
  | cons q ps ih =>
      have hsame : q.node = p.node → q.attr = p.attr → q = p := by
        cases p
        cases q
        simp_all
      rw [storing]
      split
      · split
        · simp only [Std.ExtTreeMap.getElem?_insert, Std.LawfulEqOrd.compare_eq_iff_eq]
          grind
        · grind
      · grind

/-- The graph in which the nodes that `old` picks hold the given numbers and compute nothing. All
other nodes are as they were. -/
def freeze (g : Graph) (old : String → Prop) [DecidablePred old] (values : Plug → Option Float)
    (ps : List Plug) : Graph where
  nodes := g.nodes.map fun name n =>
    if old name then ⟨.other "", storing values name ps, ∅, {}⟩ else n
  connections := g.connections.filter fun dest _ => !decide (old dest.node)
  selection := []
  journal := []

section Freeze

variable {old : String → Prop} [DecidablePred old] {values : Plug → Option Float} {ps : List Plug}

/-- Other nodes are as they were. -/
theorem agreeOn_freeze : AgreeOn (fun name => ¬ old name) g (g.freeze old values ps) := by
  intro name hname
  refine ⟨?_, fun attr => ?_⟩
  · simp [freeze, Std.ExtTreeMap.getElem?_map, hname]
  · simp only [freeze, source?, Std.ExtTreeMap.getElem?_filter', hname]
    cases g.connections[(⟨name, attr⟩ : Plug)]? <;> rfl

/-- A frozen plug has the value that was given. -/
theorem number?_freeze (hnode : p.node ∈ g.nodes) (hold : old p.node)
    (hps : ∀ x, values p = some x → p ∈ ps) :
    (g.freeze old values ps).number? p = values p := by
  obtain ⟨n, hn⟩ := Option.isSome_iff_exists.1 (Std.ExtTreeMap.mem_iff_isSome_getElem?.1 hnode)
  have hfrozen : (g.freeze old values ps).nodes[p.node]? =
      some ⟨.other "", storing values p.node ps, ∅, {}⟩ := by
    simp [freeze, Std.ExtTreeMap.getElem?_map, hn, hold]
  have hsource : (g.freeze old values ps).source? p = none := by
    simp [freeze, source?, hold]
  have hattr : (storing values p.node ps)[p.attr]? = (values p).map Value.double := by
    rw [getElem?_storing]
    cases hv : values p with
    | none => simp
    | some x => simp [hps x hv]
  cases hv : values p with
  | some x =>
      rw [hv] at hattr
      have hrecipe : (g.freeze old values ps).recipe p = .ok (.stored x) :=
        recipe_of_stored hsource hfrozen (by simp [NodeKind.outputs]) hattr rfl
      rw [number?_of_recipe hrecipe, Recipe.eval?]
  | none =>
      rw [Option.eq_none_iff_forall_ne_some]
      intro x hx
      rw [number?_eq_some_iff, evaluate_eq_ok_iff, hasValue_iff] at hx
      obtain ⟨r, hr, -⟩ := hx
      obtain ⟨source, hs, -⟩ | ⟨-, m, hm, hf⟩ := recipe_cases hr
      · simp [hsource] at hs
      · obtain rfl := Option.some.inj (hfrozen.symm.trans hm)
        obtain hf | ⟨-, v, y, hattr', -, -⟩ := hf
        · simp [Node.formula?] at hf
        · simp [hattr, hv] at hattr'

end Freeze

/-! ### Interchangeable networks -/

/-- A plug of `g` **means** something, however the `old` nodes are fed: its value is that meaning in
every graph that has the same other nodes. -/
def Means (old : String → Prop) (g : Graph) (source : Plug) (meaning : Graph → Option Float) :
    Prop :=
  ∀ later, AgreeOn (fun name => ¬ old name) g later → later.number? source = meaning later

/-- A meaning **depends on** the plugs of some nodes: it is the same in graphs in which these have
the same values. -/
def MeaningOver (old : String → Prop) (meaning : Graph → Option Float) : Prop :=
  ∀ g g' : Graph, (∀ p : Plug, old p.node → g.number? p = g'.number? p) → meaning g = meaning g'

/-- Two plugs **mean the same** in their graphs. -/
def SameMeaning (old : String → Prop) (g₁ g₂ : Graph) (source₁ source₂ : Plug) : Prop :=
  ∃ meaning, MeaningOver old meaning ∧ Means old g₁ source₁ meaning ∧ Means old g₂ source₂ meaning

/-- A plug of an old node means its own value. -/
theorem SameMeaning.of_old {old : String → Prop} {source : Plug} (h : old source.node) :
    SameMeaning old g₁ g₂ source source :=
  ⟨fun g => g.number? source, fun _ _ hsame => hsame source h, fun _ _ => rfl, fun _ _ => rfl⟩

/-- Meaning the same is mutual. -/
theorem SameMeaning.rel_symm {old : String → Prop} {a b : Option Plug}
    (h : Option.Rel (SameMeaning old g₁ g₂) a b) : Option.Rel (SameMeaning old g₂ g₁) b a := by
  cases h with
  | none => exact .none
  | some hsame =>
      obtain ⟨meaning, hover, hfirst, hsecond⟩ := hsame
      exact .some ⟨meaning, hover, hsecond, hfirst⟩

/-- Two graphs are **interchangeable** as far as `old` nodes are concerned: these are there in both
and store the same, and their plugs are fed by plugs that mean the same. -/
structure Interchangeable (old : String → Prop) (g₁ g₂ : Graph) : Prop where
  node_eq : ∀ name, old name → ∃ n₁ n₂, g₁.nodes[name]? = some n₁ ∧ g₂.nodes[name]? = some n₂ ∧
    n₂ = { n₁ with locked := n₂.locked }
  source_rel : ∀ p : Plug, old p.node →
    Option.Rel (SameMeaning old g₁ g₂) (g₁.source? p) (g₂.source? p)

namespace Interchangeable

variable {old : String → Prop}

theorem symm (h : Interchangeable old g₁ g₂) : Interchangeable old g₂ g₁ where
  node_eq name hname := by
    obtain ⟨n₁, n₂, hn₁, hn₂, heq⟩ := h.node_eq name hname
    refine ⟨n₂, n₁, hn₂, hn₁, ?_⟩
    rw [heq]
  source_rel p hp := SameMeaning.rel_symm (h.source_rel p hp)

/-- An old plug without a connection has the same recipe in both graphs. -/
theorem recipe_eq (h : Interchangeable old g₁ g₂) (hp : old p.node) (hs₁ : g₁.source? p = none)
    (hs₂ : g₂.source? p = none) : g₂.recipe p = g₁.recipe p := by
  obtain ⟨n₁, n₂, hn₁, hn₂, heq⟩ := h.node_eq p.node hp
  simp only [source?] at hs₁ hs₂
  have hattr : n₂.attributes = n₁.attributes := by rw [heq]
  have hformula : n₂.formula? p = n₁.formula? p := by
    rw [heq]
    rfl
  simp only [recipe, hs₁, hs₂, node, hn₁, hn₂, bind, Except.bind, hformula, hattr]

/-- What an old plug has as its value in one graph it has in the other. -/
theorem number?_of_eq_some [DecidablePred old] (h : Interchangeable old g₁ g₂) (hp : old p.node)
    {x : Float} (hx : g₁.number? p = some x) : g₂.number? p = some x := by
  -- The old plugs of the first graph are frozen at their values in the second one.
  let frozen := g₁.freeze old g₂.number? g₂.plugs
  have hagree : AgreeOn (fun name => ¬ old name) g₁ frozen := agreeOn_freeze
  have hfrozen : ∀ q : Plug, old q.node → frozen.number? q = g₂.number? q := by
    intro q hq
    obtain ⟨n₁, -, hn₁, -⟩ := h.node_eq q.node hq
    exact number?_freeze (mem_nodes_of_eq_some hn₁) hq fun _ => mem_plugs_of_number?
  rw [← hfrozen p hp]
  refine number?_least (fun q r y hr hy => ?_) hx
  by_cases hq : old q.node
  · rw [hfrozen q hq]
    have hrel := h.source_rel q hq
    cases hs : g₁.source? q with
    | none =>
        cases hs₂ : g₂.source? q with
        | some source => simp [hs, hs₂] at hrel
        | none =>
            rw [number?_of_recipe ((h.recipe_eq hq hs hs₂).trans hr), ← hy]
            refine Recipe.eval?_congr fun need hneed => (hfrozen need ?_).symm
            obtain ⟨source, hs', -⟩ | ⟨-, n, -, hf | ⟨-, v, z, -, -, rfl⟩⟩ := recipe_cases hr
            · simp [hs] at hs'
            · rw [Node.needs_of_formula? hf] at hneed
              obtain ⟨attr, -, rfl⟩ := List.mem_map.1 hneed
              exact hq
            · simp [Recipe.needs] at hneed
    | some source₁ =>
        obtain rfl : r = .follow source₁ := by simpa [recipe_of_source hs] using hr.symm
        cases hs₂ : g₂.source? q with
        | none => simp [hs, hs₂] at hrel
        | some source₂ =>
            rw [hs, hs₂, Option.rel_some_some] at hrel
            obtain ⟨meaning, hover, hfirst, hsecond⟩ := hrel
            calc g₂.number? q = g₂.number? source₂ := number?_of_recipe (recipe_of_source hs₂)
              _ = meaning g₂ := hsecond g₂ (.refl _ g₂)
              _ = meaning frozen := hover g₂ frozen fun q' hq' => (hfrozen q' hq').symm
              _ = frozen.number? source₁ := (hfirst frozen hagree).symm
              _ = some y := hy
  · rw [number?_of_recipe ((hagree.recipe_eq hq).trans hr), hy]

/-- **Common plugs have the same values.** -/
theorem number?_eq [DecidablePred old] (h : Interchangeable old g₁ g₂) (hp : old p.node) :
    g₁.number? p = g₂.number? p := by
  ext x
  exact ⟨h.number?_of_eq_some hp, h.symm.number?_of_eq_some hp⟩

end Interchangeable

end Graph

end RigScript
