import RigScript.Proofs.Compile.Progress
import RigScript.Proofs.Convert.Rollback

/-!
# Which scripts compile

Whether a script compiles can be read off the script and the scene that it starts from. Every
sentence needs a target that is present and holds a number, an expression out of operations that
can be built, and paths to plugs that are present. Nothing that happens on the way matters: what a
sentence does to the scene keeps plugs present and targets fit to hold numbers, locks are lifted,
and connections give way.

## Main definitions

* `RigScript.Expr.Supported`: an expression out of operations that can be built
* `RigScript.Graph.Assignable`: a plug that a sentence may assign to
* `RigScript.Sentence.Admissible`: a sentence that compiles
* `RigScript.Graph.Admits`: a text that compiles, judged by the text and the graph alone

## Main results

* `RigScript.Build.succeeds_lower`, `RigScript.Build.supported_of_yields`: which expressions can be
  lowered
* `RigScript.Build.exists_yields_sentences`, `RigScript.Build.admissible_of_yields_sentences`: which
  sentences compile one after the other
* `RigScript.compileScript_succeeds_iff`: **a script compiles exactly when the scene admits it**
-/

namespace RigScript

/-! ### What can be judged beforehand -/

/-- A function may be called with a number of arguments. -/
def Callable (name : String) (count : Nat) : Prop :=
  (name = "min" ∨ name = "max") ∧ count = 2 ∨ name = "sin" ∧ count = 1

theorem callable_iff {name : String} {count : Nat} :
    Callable name count ↔ ∃ f, Builtin.ofName? name = some f ∧ count = f.arity := by
  unfold Callable Builtin.ofName?
  split
  · next h => simp [h, Builtin.arity]
  · split
    · next h => simp [h, Builtin.arity]
    · split
      · next h => simp [h, Builtin.arity]
      · simp_all

mutual

/-- The expression consists of operations that can be built: there are no comparisons, functions are
called as they may be, and remainders are taken by numbers that are greater than `epsilon`. -/
def Expr.Supported (epsilon : Float) : Expr → Prop
  | .number _ => True
  | .path _ => True
  | .brackets e => e.Supported epsilon
  | .unary _ e => e.Supported epsilon
  | .binary op left right =>
    op.Supported epsilon right.literal? ∧ left.Supported epsilon ∧ right.Supported epsilon
  | .call name args => Callable name args.length ∧ Expr.SupportedAll epsilon args

/-- The same for several expressions. -/
def Expr.SupportedAll (epsilon : Float) : List Expr → Prop
  | [] => True
  | e :: es => e.Supported epsilon ∧ Expr.SupportedAll epsilon es

end

/-- The paths stand for plugs that are present. -/
def Context.Finds (c : Context) (g : Graph) (paths : List String) : Prop :=
  ∀ path ∈ paths, ∃ p, c.resolve path = .ok p ∧ g.Present p

@[simp] theorem Context.finds_append {c : Context} {g : Graph} {paths paths' : List String} :
    c.Finds g (paths ++ paths') ↔ c.Finds g paths ∧ c.Finds g paths' := by
  simp only [Finds, List.mem_append, or_imp, forall_and]

theorem Context.Finds.grows {c : Context} {g g' : Graph} {paths : List String}
    (h : c.Finds g paths) (hg : g.Grows g') : c.Finds g' paths := by
  intro path hpath
  obtain ⟨p, hp, hpresent⟩ := h path hpath
  exact ⟨p, hp, hg.present hpresent⟩

/-- A plug that a sentence **may assign to**: it is present, and what it stores is a number. An
array element that is not stored counts as one. -/
def Graph.Assignable (g : Graph) (p : Plug) : Prop :=
  g.Present p ∧ ∀ v, g.value? p = some v → v.kind = .double ∨ v.kind = .doubleLinear

/-- A sentence is **admissible** in a graph: its target may be assigned to, its expression can be
built, and the paths of the expression are found. -/
def Sentence.Admissible (c : Context) (g : Graph) (s : Sentence) : Prop :=
  (∃ p, c.resolve s.target = .ok p ∧ g.Assignable p) ∧
    s.value.Supported c.options.moduloEpsilon ∧ c.Finds g s.value.paths

/-- A graph **admits** a text: it is a script without choices, and its sentences are all
admissible in the graph as it is. -/
def Graph.Admits (g : Graph) (c : Context) (script : String) : Prop :=
  ∃ ss : List Sentence, Program.parse (script ++ "\n") = .ok ⟨ss.map .sentence⟩ ∧
    ∀ s ∈ ss, s.Admissible c g

/-! ### Lowering -/

namespace Build

variable {c : Context} {g g' : Graph} {a b o : Operand} {names names' : List String}

theorem succeeds_negate (hg : g.WellFormed) (ha : a.Present g) :
    (negate a).Succeeds g fun o g' =>
      o.constant? = a.constant?.map (fun x => -x) ∧ o.Present g' := by
  cases a with
  | constant x => exact .pure ⟨rfl, trivial⟩
  | plug p =>
      rw [negate, multiplyDivide_eq]
      exact (Blueprint.sound_multiplyDivide _ _ _).succeeds hg
        (Blueprint.supplied_multiplyDivide.2 ⟨ha, trivial⟩)

theorem succeeds_combine {op : BinaryOp} (hg : g.WellFormed)
    (hop : op.Supported c.options.moduloEpsilon b.constant?) (ha : a.Present g)
    (hb : b.Present g) :
    (combine c op a b).Succeeds g fun o g' => o.constant? = none ∧ o.Present g' := by
  obtain ⟨plan, hplan⟩ := BinaryOp.exists_blueprint_iff (a := a).2 hop
  obtain ⟨hsound, hsupplied⟩ := BinaryOp.blueprint_eq_ok hplan
  rw [combine_eq, hplan]
  exact hsound.succeeds hg ((hsupplied g).2 ⟨ha, hb⟩)

theorem succeeds_apply {name : String} {f : Builtin} {operands : List Operand}
    (hg : g.WellFormed) (hcount : operands.length = f.arity) (ho : ∀ a ∈ operands, a.Present g) :
    (apply name f operands).Succeeds g fun o g' => o.constant? = none ∧ o.Present g' := by
  unfold apply
  split
  · rw [boundedAbove_eq]
    exact (Blueprint.sound_clamp _ _ _ (by decide)).succeeds hg
      (Blueprint.supplied_clamp.2 (by simpa using ho))
  · rw [boundedBelow_eq]
    exact (Blueprint.sound_clamp _ _ _ (by decide)).succeeds hg
      (Blueprint.supplied_clamp.2 (by simpa using ho))
  · next angle =>
    rw [sine_eq]
    refine .bind hg ((Blueprint.sound_doubler angle).succeeds hg
      (Blueprint.supplied_doubler.2 (ho angle (by simp)))) fun twice g₁ hg₁ _ htwice => ?_
    exact (Blueprint.sound_quaternion twice).succeeds hg₁
      (Blueprint.supplied_quaternion.2 htwice.2)
  · next hmin hmax hsin =>
    exfalso
    cases f with
    | min =>
        obtain ⟨x, y, rfl⟩ := List.length_eq_two.1 hcount
        exact hmin x y rfl rfl
    | max =>
        obtain ⟨x, y, rfl⟩ := List.length_eq_two.1 hcount
        exact hmax x y rfl rfl
    | sin =>
        obtain ⟨x, rfl⟩ := List.length_eq_one_iff.1 hcount
        exact hsin x rfl rfl

mutual

/-- **An expression that can be built is lowered** when its paths are found. -/
theorem succeeds_lower {g : Graph} (e : Expr) (hg : g.WellFormed)
    (he : e.Supported c.options.moduloEpsilon) (hfinds : c.Finds g e.paths) :
    (lower c e).Succeeds g fun a g' => a.constant? = e.literal? ∧ a.Present g' := by
  match e with
  | .number x => exact .pure ⟨rfl, trivial⟩
  | .path text =>
      obtain ⟨p, hp, hpresent⟩ := hfinds text (by simp [Expr.paths])
      rw [lower, resolve, hp]
      exact .pure ⟨rfl, hpresent⟩
  | .brackets e => exact succeeds_lower e hg he hfinds
  | .unary .plus e => exact succeeds_lower e hg he hfinds
  | .unary .minus e =>
      refine .bind hg (succeeds_lower e hg he hfinds) fun a g₁ hg₁ _ ⟨hlit, ha⟩ => ?_
      refine (succeeds_negate hg₁ ha).mono fun o g' ⟨ho, hpresent⟩ => ⟨?_, hpresent⟩
      rw [ho, hlit, Expr.literal?]
  | .binary op left right =>
      obtain ⟨hop, hleft, hright⟩ := he
      obtain ⟨hfinds₁, hfinds₂⟩ := Context.finds_append.1 hfinds
      have hboth : (do
          let a ← lower c left
          let b ← lower c right
          combine c op a b : Build Operand).Succeeds g fun o g' =>
            o.constant? = none ∧ o.Present g' := by
        refine .bind hg (succeeds_lower left hg hleft hfinds₁) fun a g₁ hg₁ hgrows ⟨_, ha⟩ => ?_
        refine .bind hg₁ (succeeds_lower right hg₁ hright (hfinds₂.grows hgrows))
          fun b g₂ hg₂ hgrows₂ ⟨hlit, hb⟩ => ?_
        exact succeeds_combine hg₂ (hlit ▸ hop) (ha.grows hgrows₂) hb
      cases op with
      | equal => exact hop.elim
      | unequal => exact hop.elim
      | _ => exact hboth
  | .call name args =>
      obtain ⟨hcall, hargs⟩ := he
      obtain ⟨f, hf, hcount⟩ := callable_iff.1 hcall
      rw [lower, checkCall, hf]
      simp only [hcount, if_true, pure_bind]
      refine .bind hg (succeeds_lowerAll args hg hargs hfinds) fun operands g₁ hg₁ _ ho => ?_
      exact succeeds_apply hg₁ (ho.1.trans hcount) ho.2

/-- Several expressions are lowered from left to right. -/
theorem succeeds_lowerAll {g : Graph} (es : List Expr) (hg : g.WellFormed)
    (hes : Expr.SupportedAll c.options.moduloEpsilon es) (hfinds : c.Finds g (Expr.pathsAll es)) :
    (lowerAll c es).Succeeds g fun operands g' =>
      operands.length = es.length ∧ ∀ a ∈ operands, a.Present g' := by
  match es with
  | [] => exact .pure ⟨rfl, by simp⟩
  | e :: es =>
      obtain ⟨he, hes⟩ := hes
      obtain ⟨hfinds₁, hfinds₂⟩ := Context.finds_append.1 hfinds
      refine .bind hg (succeeds_lower e hg he hfinds₁) fun a g₁ hg₁ hgrows ⟨_, ha⟩ => ?_
      refine .bind hg₁ (succeeds_lowerAll es hg₁ hes (hfinds₂.grows hgrows))
        fun operands g₂ _ hgrows₂ ⟨hlength, ho⟩ => ?_
      exact .pure ⟨by simp [hlength], List.forall_mem_cons.2 ⟨ha.grows hgrows₂, ho⟩⟩

end

/-! ### What a lowered expression shows -/

/-- An operand that was negated is present afterwards. -/
theorem present_of_yields_negate (h : (negate a).Yields Graph.host names g o names' g') :
    g.Grows g' ∧ a.Present g' := by
  cases a with
  | constant x =>
      obtain ⟨-, -, rfl⟩ := yields_pure.1 h
      exact ⟨.refl g, trivial⟩
  | plug p =>
      rw [negate, multiplyDivide_eq] at h
      obtain ⟨hgrows, hsupplied, -⟩ := Blueprint.supplied_of_yields h
      exact ⟨hgrows, (Blueprint.supplied_multiplyDivide.1 hsupplied).1⟩

/-- Two operands that were combined are present afterwards, and the operation can be built. -/
theorem supported_of_yields_combine {op : BinaryOp}
    (h : (combine c op a b).Yields Graph.host names g o names' g') :
    g.Grows g' ∧ a.Present g' ∧ b.Present g' ∧
      op.Supported c.options.moduloEpsilon b.constant? := by
  rw [combine_eq] at h
  cases hplan : op.blueprint c.options.moduloEpsilon a b with
  | error e =>
      rw [hplan] at h
      exact absurd h not_yields_throw
  | ok plan =>
      rw [hplan] at h
      obtain ⟨hgrows, hsupplied, -⟩ := Blueprint.supplied_of_yields h
      obtain ⟨ha, hb⟩ := ((BinaryOp.blueprint_eq_ok hplan).2 g').1 hsupplied
      exact ⟨hgrows, ha, hb, BinaryOp.exists_blueprint_iff.1 ⟨plan, hplan⟩⟩

/-- A call that was checked is one that may be made. -/
theorem callable_of_yields_checkCall {name : String} {found : Nat} {f : Builtin}
    (h : (checkCall name found).Yields Graph.host names g f names' g') :
    Callable name found ∧ g = g' := by
  obtain ⟨hf, hsame⟩ := yields_checkCall h
  refine ⟨callable_iff.2 ⟨f, hf, ?_⟩, hsame⟩
  by_contra hne
  simp only [checkCall, hf, if_neg hne] at h
  exact not_yields_throw h

/-- The operands of a function that was applied are present afterwards. -/
theorem present_of_yields_apply {name : String} {f : Builtin} {operands : List Operand}
    (h : (apply name f operands).Yields Graph.host names g o names' g') :
    g.Grows g' ∧ ∀ a ∈ operands, a.Present g' := by
  unfold apply at h
  split at h
  · rw [boundedAbove_eq] at h
    obtain ⟨hgrows, hsupplied, -⟩ := Blueprint.supplied_of_yields h
    exact ⟨hgrows, by simpa using Blueprint.supplied_clamp.1 hsupplied⟩
  · rw [boundedBelow_eq] at h
    obtain ⟨hgrows, hsupplied, -⟩ := Blueprint.supplied_of_yields h
    exact ⟨hgrows, by simpa using Blueprint.supplied_clamp.1 hsupplied⟩
  · rw [sine_eq] at h
    obtain ⟨twice, _, g₁, hdouble, h⟩ := yields_bind.1 h
    obtain ⟨hgrows, hsupplied, -⟩ := Blueprint.supplied_of_yields hdouble
    obtain ⟨hgrows', -, -⟩ := Blueprint.supplied_of_yields h
    refine ⟨hgrows.trans hgrows', ?_⟩
    simpa using (Blueprint.supplied_doubler.1 hsupplied).grows hgrows'
  · exact absurd h not_yields_throw

mutual

/-- **What was lowered can be built**, and its paths are found as soon as the operand that stands
for it is present. A path alone asks for nothing, so the operand may yet be missing. -/
theorem supported_of_yields {names names' : List String} {g g' : Graph} {a : Operand} (e : Expr)
    (hg : g.WellFormed) (h : (lower c e).Yields Graph.host names g a names' g') :
    g.Grows g' ∧ e.Supported c.options.moduloEpsilon ∧
      ∀ later, g'.Grows later → a.Present later → c.Finds later e.paths := by
  match e with
  | .number x =>
      obtain ⟨-, -, rfl⟩ := yields_pure.1 h
      exact ⟨.refl g, trivial, fun _ _ _ => by simp [Context.Finds, Expr.paths]⟩
  | .path text =>
      obtain ⟨p, _, _, hresolve, h⟩ := yields_bind.1 h
      obtain ⟨rfl, -, rfl⟩ := yields_pure.1 h
      obtain ⟨hp, rfl⟩ := yields_resolve hresolve
      refine ⟨.refl g, trivial, fun later _ hpresent => ?_⟩
      simpa [Context.Finds, Expr.paths] using ⟨p, hp, hpresent⟩
  | .brackets e => exact supported_of_yields e hg h
  | .unary .plus e => exact supported_of_yields e hg h
  | .unary .minus e =>
      obtain ⟨b, _, g₁, hb, h⟩ := yields_bind.1 h
      obtain ⟨hgrows, he, hfinds⟩ := supported_of_yields e hg hb
      obtain ⟨hgrows', hpresent⟩ := present_of_yields_negate h
      refine ⟨hgrows.trans hgrows', he, fun later hlater _ => ?_⟩
      exact hfinds later (hgrows'.trans hlater) (hpresent.grows hlater)
  | .binary op left right =>
      have hlower : (do
          let a ← lower c left
          let b ← lower c right
          combine c op a b : Build Operand).Yields Graph.host names g a names' g' := by
        cases op with
        | equal => exact absurd h not_yields_throw
        | unequal => exact absurd h not_yields_throw
        | _ => exact h
      obtain ⟨l, _, g₁, hl, hlower⟩ := yields_bind.1 hlower
      obtain ⟨r, _, g₂, hr, hlower⟩ := yields_bind.1 hlower
      have hg₁ := hl.wellFormed hg
      obtain ⟨hgrows₁, hleft, hfinds₁⟩ := supported_of_yields left hg hl
      obtain ⟨hgrows₂, hright, hfinds₂⟩ := supported_of_yields right hg₁ hr
      obtain ⟨hgrows₃, hlpresent, hrpresent, hop⟩ := supported_of_yields_combine hlower
      rw [(realizes_lower right hg₁ hr).1] at hop
      refine ⟨(hgrows₁.trans hgrows₂).trans hgrows₃, ⟨hop, hleft, hright⟩,
        fun later hlater _ => Context.finds_append.2 ⟨?_, ?_⟩⟩
      · exact hfinds₁ later ((hgrows₂.trans hgrows₃).trans hlater) (hlpresent.grows hlater)
      · exact hfinds₂ later (hgrows₃.trans hlater) (hrpresent.grows hlater)
  | .call name args =>
      obtain ⟨f, _, _, hcheck, h⟩ := yields_bind.1 h
      obtain ⟨hcallable, rfl⟩ := callable_of_yields_checkCall hcheck
      obtain ⟨operands, _, g₁, hargs, h⟩ := yields_bind.1 h
      obtain ⟨hgrows, hsupported, hfinds⟩ := supportedAll_of_yields args hg hargs
      obtain ⟨hgrows', hpresent⟩ := present_of_yields_apply h
      refine ⟨hgrows.trans hgrows', ⟨hcallable, hsupported⟩, fun later hlater _ => ?_⟩
      exact hfinds later (hgrows'.trans hlater) fun a ha => (hpresent a ha).grows hlater

/-- The same for several expressions. -/
theorem supportedAll_of_yields {names names' : List String} {g g' : Graph} {as : List Operand}
    (es : List Expr) (hg : g.WellFormed)
    (h : (lowerAll c es).Yields Graph.host names g as names' g') :
    g.Grows g' ∧ Expr.SupportedAll c.options.moduloEpsilon es ∧
      ∀ later, g'.Grows later → (∀ a ∈ as, a.Present later) →
        c.Finds later (Expr.pathsAll es) := by
  match es with
  | [] =>
      obtain ⟨-, -, rfl⟩ := yields_pure.1 h
      exact ⟨.refl g, trivial, fun _ _ _ => by simp [Context.Finds, Expr.pathsAll]⟩
  | e :: es =>
      obtain ⟨a, _, g₁, ha, h⟩ := yields_bind.1 h
      obtain ⟨as, _, g₂, has, h⟩ := yields_bind.1 h
      obtain ⟨rfl, -, rfl⟩ := yields_pure.1 h
      obtain ⟨hgrows, he, hfinds⟩ := supported_of_yields e hg ha
      obtain ⟨hgrows', hes, hfinds'⟩ := supportedAll_of_yields es (ha.wellFormed hg) has
      refine ⟨hgrows.trans hgrows', ⟨he, hes⟩, fun later hlater hall => ?_⟩
      obtain ⟨hhead, htail⟩ := List.forall_mem_cons.1 hall
      exact Context.finds_append.2 ⟨hfinds later (hgrows'.trans hlater) hhead,
        hfinds' later hlater htail⟩

end

end Build

/-! ### Sentences -/

namespace Graph

variable {g g' base : Graph} {p : Plug} {targets : Plug → Prop} {created : List String}

/-- A plug may be assigned to when what is read there is a number. -/
theorem assignable_iff :
    g.Assignable p ↔ ∃ v, g.getAttribute p = .ok v ∧ v.kind.isScalar = true := by
  have hscalar : ∀ v : Value, v.kind.isScalar = true ↔
      v.kind = .double ∨ v.kind = .doubleLinear := by
    intro v
    cases v <;> simp [Value.kind, AttrKind.isScalar]
  have hvalue : ∀ n, g.nodes[p.node]? = some n → g.value? p = n.attributes[p.attr]? := by
    intro n hn
    rw [value?, hn, Option.bind_some]
  simp only [Assignable, getAttribute_eq_ok_iff, ← hscalar]
  constructor
  · rintro ⟨hpresent, hkind⟩
    obtain ⟨n, hn⟩ := present_iff.1 hpresent
    refine ⟨_, ⟨n, hn, rfl⟩, ?_⟩
    rw [hvalue n (checkAttr_eq_ok_iff.1 hn).1] at hkind
    cases hattr : n.attributes[p.attr]? with
    | none => rfl
    | some v => exact hkind v hattr
  · rintro ⟨_, ⟨n, hn, rfl⟩, hkind⟩
    refine ⟨present_iff.2 ⟨n, hn⟩, fun v hv => ?_⟩
    rw [hvalue n (checkAttr_eq_ok_iff.1 hn).1] at hv
    rwa [hv] at hkind

/-- A plug that is present and not locked may be written. -/
theorem exists_checkAttr_of_not_locked (hpresent : g.Present p) (hlocked : ¬ g.Locked p) :
    ∃ n, g.checkAttr p = .ok n ∧ p.attr ∉ n.locked := by
  obtain ⟨n, hn⟩ := present_iff.1 hpresent
  exact ⟨n, hn, fun hmem => hlocked ⟨n, (checkAttr_eq_ok_iff.1 hn).1, hmem⟩⟩

/-- A compilation leaves the plugs of the base fit to be assigned to, and it makes none so. -/
theorem Footprint.assignable_iff (h : base.Footprint targets created g) (hgrows : base.Grows g)
    (hp : p.node ∈ base.nodes) : g.Assignable p ↔ base.Assignable p := by
  refine and_congr (hgrows.present_iff hp) ⟨fun hall v hv => ?_, fun hall v hv => ?_⟩
  · obtain ⟨w, hw, hkind, -⟩ := h.kept_value hv
    exact hkind ▸ hall w hw
  · by_contra hnot
    have hscalar : v.kind.isScalar = false := by
      cases hk : v.kind <;> simp_all [AttrKind.isScalar]
    exact hnot (hall v (h.value?_eq_some_of_not_isScalar hp hv hscalar))

end Graph

section Transfer

variable {c : Context} {g base : Graph} {targets : Plug → Prop} {created : List String}

/-- What may be assigned to later could be assigned to at the start, on a node that was there. -/
theorem Graph.Assignable.earlier {p : Plug} (h : g.Assignable p)
    (hfoot : base.Footprint targets created g) (hgrows : base.Grows g) (hp : p.node ∉ created) :
    base.Assignable p :=
  (hfoot.assignable_iff hgrows
    (((hfoot.mem_nodes_iff _).1 h.1.node_mem).resolve_right hp)).1 h

/-- Paths that are found later were found at the start, if they lead to nodes that were there. -/
theorem Context.Finds.earlier {paths : List String} (h : c.Finds g paths)
    (hfoot : base.Footprint targets created g) (hgrows : base.Grows g)
    (hpaths : ∀ path ∈ paths, ∀ p, c.resolve path = .ok p → p.node ∉ created) :
    c.Finds base paths := by
  intro path hpath
  obtain ⟨p, hp, hpresent⟩ := h path hpath
  have hbase : p.node ∈ base.nodes :=
    ((hfoot.mem_nodes_iff _).1 hpresent.node_mem).resolve_right (hpaths path hpath p hp)
  exact ⟨p, hp, (hgrows.present_iff hbase).1 hpresent⟩

/-- What was admissible at the start is so later. -/
theorem Sentence.Admissible.later {s : Sentence} (h : s.Admissible c base)
    (hfoot : base.Footprint targets created g) (hgrows : base.Grows g) : s.Admissible c g := by
  obtain ⟨⟨p, hp, hassignable⟩, hsupported, hfinds⟩ := h
  refine ⟨⟨p, hp, ?_⟩, hsupported, hfinds.grows hgrows⟩
  exact (hfoot.assignable_iff hgrows hassignable.1.node_mem).2 hassignable

end Transfer

namespace Build

variable {c : Context} {g g' base : Graph} {a : Operand} {names names' : List String}
  {s : Sentence} {targets : Plug → Prop}

/-- An operand that is present is assigned to a plug that is not locked. -/
theorem succeeds_assign {dest : Plug} (hg : g.WellFormed) (hdest : g.Present dest)
    (hlocked : ¬ g.Locked dest) (ha : a.Present g) :
    (assign dest a).Succeeds g fun _ _ => True := by
  have hcheck := Graph.exists_checkAttr_of_not_locked hdest hlocked
  cases a with
  | constant x =>
      refine .bind (P := fun _ g' => ∃ n, g'.checkAttr dest = .ok n ∧ dest.attr ∉ n.locked ∧
        g'.source? dest = none) hg ?_ fun _ g' _ _ hn => ?_
      · refine .ask (Graph.perform_disconnect.2 ⟨hcheck, rfl⟩)
          (by simp) ?_
        obtain ⟨n, hn, hfree⟩ := hcheck
        exact ⟨n, hn, hfree, Std.ExtTreeMap.getElem?_erase_self⟩
      · obtain ⟨n, hn, hfree, hsource⟩ := hn
        exact .ask (Graph.perform_setAttribute.2 ⟨n, hn, hfree, hsource, rfl⟩) (by simp) trivial
  | plug p =>
      exact .ask (Graph.perform_connect.2 ⟨Graph.present_iff.1 ha, hcheck, .inl rfl, rfl⟩)
        (by simp) trivial

/-- **An admissible sentence compiles**, whatever is locked or connected. -/
theorem succeeds_sentence (hg : g.WellFormed) (hs : s.Admissible c g) :
    (sentence c s).Succeeds g fun _ _ => True := by
  obtain ⟨⟨dest, hdest, hassignable⟩, hsupported, hfinds⟩ := hs
  obtain ⟨v, hv, hscalar⟩ := Graph.assignable_iff.1 hassignable
  have hdestination : (destination c s.target).Succeeds g fun dest' _ => dest = dest' := by
    rw [destination, resolve, hdest]
    refine .bind (P := fun v' _ => v = v') hg
      (.ask (Graph.perform_getAttribute.2 ⟨hv, rfl⟩) (by simp) rfl) ?_
    rintro _ g' - - rfl
    rw [if_pos hscalar]
    exact .pure rfl
  refine .bind hg hdestination ?_
  rintro _ g₁ hg₁ hgrows₁ rfl
  refine .bind hg₁ (succeeds_lower s.value hg₁ hsupported (hfinds.grows hgrows₁))
    fun a g₂ hg₂ hgrows₂ ⟨_, ha⟩ => ?_
  have hpresent := hgrows₂.present (hgrows₁.present hassignable.1)
  obtain ⟨n, hn⟩ := Graph.present_iff.1 hpresent
  obtain ⟨locked, hlocked⟩ : ∃ locked, g₂.isLocked dest = .ok locked :=
    ⟨n.locked.contains dest.attr, by rw [Graph.isLocked, hn]; rfl⟩
  refine .bind (P := fun locked' g' => locked = locked' ∧ g₂ = g') hg₂
    (.ask (Graph.perform_isLocked.2 ⟨hlocked, rfl⟩) (by simp) ⟨rfl, rfl⟩) ?_
  rintro _ _ - - ⟨rfl, rfl⟩
  split
  · obtain ⟨g₃, hunlock⟩ : ∃ g₃, g₂.perform (.setLocked dest false) = .ok ((), g₃) :=
      ⟨_, Graph.perform_setLocked.2 ⟨n, hn, rfl⟩⟩
    refine .bind (P := fun _ g' => ¬ g'.Locked dest) hg₂ (.ask hunlock
      (by simp) (Graph.not_locked_of_setLocked hunlock)) fun _ g' hg' hgrows' hfree => ?_
    exact succeeds_assign hg' (hgrows'.present hpresent) hfree (ha.grows hgrows')
  · next hfree =>
    obtain rfl : locked = false := by simpa using hfree
    exact succeeds_assign hg₂ hpresent (Graph.not_locked_of_isLocked hlocked) ha

/-- The target of a sentence that compiled may be assigned to. -/
theorem assignable_of_yields_destination {target : String} {dest : Plug}
    (h : (destination c target).Yields Graph.host names g dest names' g') :
    g.Assignable dest := by
  obtain ⟨p, _, _, hresolve, h⟩ := yields_bind.1 h
  obtain ⟨-, rfl⟩ := yields_resolve hresolve
  obtain ⟨v, _, _, hget, hcheck⟩ := yields_bind.1 h
  obtain ⟨hv, rfl⟩ := Graph.perform_getAttribute.1 (yields_ask_graph.1 hget).1
  split at hcheck
  · next hscalar =>
    obtain ⟨rfl, -, -⟩ := yields_pure.1 hcheck
    exact Graph.assignable_iff.2 ⟨v, hv, hscalar⟩
  · exact absurd hcheck not_yields_throw

/-- An operand that was assigned is present afterwards. -/
theorem present_of_yields_assign {dest : Plug}
    (h : (assign dest a).Yields Graph.host names g () names' g') :
    g.Grows g' ∧ a.Present g' := by
  cases a with
  | constant x =>
      obtain ⟨⟨⟩, _, g₁, hdis, hset⟩ := yields_bind.1 h
      exact ⟨(grows_ask hdis (by simp)).trans (grows_ask hset (by simp)), trivial⟩
  | plug p =>
      have hgrows := grows_ask h (by simp)
      obtain ⟨hp, -⟩ := Graph.perform_connect.1 (yields_ask_graph.1 h).1
      exact ⟨hgrows, hgrows.present (Graph.present_iff.2 hp)⟩

/-- **The steps of a sentence that compiled**: its target may be assigned to, its expression is
lowered, a lock on the target is lifted if there is one, and the operand is assigned. -/
theorem yields_sentence (h : (sentence c s).Yields Graph.host names g () names' g') :
    ∃ dest a before mid built free, c.resolve s.target = .ok dest ∧ g.Assignable dest ∧
      (lower c s.value).Yields Graph.host before g a mid built ∧
      (free = built ∨ built.perform (.setLocked dest false) = .ok ((), free)) ∧
      (assign dest a).Yields Graph.host mid free () names' g' := by
  obtain ⟨dest, before, _, hdest, h⟩ := yields_bind.1 h
  have hassignable := assignable_of_yields_destination hdest
  obtain ⟨hresolve, rfl⟩ := yields_destination hdest
  obtain ⟨a, mid, built, hlower, h⟩ := yields_bind.1 h
  obtain ⟨locked, _, _, hlocked, hassign⟩ := yields_bind.1 h
  obtain ⟨hask, rfl⟩ := yields_ask_graph.1 hlocked
  obtain ⟨-, rfl⟩ := Graph.perform_isLocked.1 hask
  split at hassign
  · obtain ⟨⟨⟩, _, free, hunlock, hassign⟩ := yields_bind.1 hassign
    obtain ⟨hlift, rfl⟩ := yields_ask_graph.1 hunlock
    exact ⟨dest, a, before, mid, _, free, hresolve, hassignable, hlower,
      .inr hlift, hassign⟩
  · exact ⟨dest, a, before, mid, _, _, hresolve, hassignable, hlower, .inl rfl, hassign⟩

/-- **What a sentence that compiled shows.** Its target could be assigned to beforehand; its paths
are found afterwards. -/
theorem admissible_of_yields_sentence (hg : g.WellFormed)
    (h : (sentence c s).Yields Graph.host names g () names' g') :
    g.Grows g' ∧ (∃ p, c.resolve s.target = .ok p ∧ g.Assignable p) ∧
      s.value.Supported c.options.moduloEpsilon ∧ c.Finds g' s.value.paths := by
  obtain ⟨dest, a, _, _, built, free, hresolve, hassignable, hlower, hfree, hassign⟩ :=
    yields_sentence h
  obtain ⟨hgrows, hsupported, hfinds⟩ := supported_of_yields s.value hg hlower
  obtain ⟨hgrows', hpresent⟩ := present_of_yields_assign hassign
  have hlift : built.Grows free := by
    obtain rfl | hfree := hfree
    · exact .refl _
    · exact .perform hfree (by simp)
  exact ⟨(hgrows.trans hlift).trans hgrows', ⟨dest, hresolve, hassignable⟩, hsupported,
    hfinds g' (hlift.trans hgrows') hpresent⟩

/-- The footprint of a sentence that compiled. -/
theorem footprint_of_yields_sentence (hfoot : base.Footprint targets names g)
    (hs : ∀ p, c.resolve s.target = .ok p → targets p)
    (h : (sentence c s).Yields Graph.host names g () names' g') :
    base.Footprint targets names' g' := by
  have hleaves : Leaves base targets g (fun p => c.resolve s.target = .ok p) _ :=
    leaves_sentence hfoot hs
  rw [h] at hleaves
  exact hleaves.footprint

/-- **Admissible sentences compile one after the other.** They are judged in the graph of the
start, which has grown since. -/
theorem exists_yields_sentences (ss : List Sentence) {g : Graph} {names : List String}
    (hg : g.WellFormed) (hfoot : base.Footprint targets names g) (hgrows : base.Grows g)
    (htargets : ∀ p, c.Assigns ss p → targets p) (hss : ∀ s ∈ ss, s.Admissible c base) :
    ∃ names' g', (sentences c ss).Yields Graph.host names g () names' g' := by
  induction ss generalizing g names with
  | nil => exact ⟨names, g, yields_pure.2 ⟨rfl, rfl, rfl⟩⟩
  | cons s ss ih =>
      simp only [Context.assigns_cons] at htargets
      obtain ⟨hs, hss⟩ := List.forall_mem_cons.1 hss
      obtain ⟨⟨⟩, mid, g₁, hfirst, hgrows₁, -⟩ :=
        succeeds_sentence hg (hs.later hfoot hgrows) names
      obtain ⟨names', g', hrest⟩ := ih (hfirst.wellFormed hg)
        (footprint_of_yields_sentence hfoot (fun p hp => htargets p (.inl hp)) hfirst)
        (hgrows.trans hgrows₁) (fun p hp => htargets p (.inr hp)) hss
      exact ⟨names', g', yields_bind.2 ⟨⟨⟩, mid, g₁, hfirst, hrest⟩⟩

/-- The nodes that were remembered stay remembered. -/
theorem subset_of_yields_sentences {ss : List Sentence}
    (h : (sentences c ss).Yields Graph.host names g () names' g') : names ⊆ names' := by
  have hnames := (passages_sentences Graph.host c ss names g).2
  rw [h] at hnames
  change names' = _ at hnames
  rw [hnames]
  exact List.subset_append_left _ _

/-- A graph grows with sentences that compile. -/
theorem grows_of_yields_sentences (ss : List Sentence) {g : Graph} {names : List String}
    (hg : g.WellFormed) (h : (sentences c ss).Yields Graph.host names g () names' g') :
    g.Grows g' := by
  induction ss generalizing g names with
  | nil =>
      obtain ⟨-, -, rfl⟩ := yields_pure.1 h
      exact .refl g
  | cons s ss ih =>
      obtain ⟨⟨⟩, _, g₁, hfirst, hrest⟩ := yields_bind.1 h
      exact (admissible_of_yields_sentence hg hfirst).1.trans (ih (hfirst.wellFormed hg) hrest)

/-- **Sentences that compiled were admissible at the start**, if none of their paths leads to a node
created for them. -/
theorem admissible_of_yields_sentences (ss : List Sentence) {g : Graph} {names : List String}
    (hg : g.WellFormed) (hfoot : base.Footprint targets names g) (hgrows : base.Grows g)
    (htargets : ∀ p, c.Assigns ss p → targets p)
    (hpaths : ∀ s ∈ ss, ∀ path ∈ s.target :: s.value.paths, ∀ p, c.resolve path = .ok p →
      p.node ∉ names')
    (h : (sentences c ss).Yields Graph.host names g () names' g') :
    ∀ s ∈ ss, s.Admissible c base := by
  induction ss generalizing g names with
  | nil => simp
  | cons s ss ih =>
      simp only [Context.assigns_cons] at htargets
      obtain ⟨hpath, hpaths⟩ := List.forall_mem_cons.1 hpaths
      obtain ⟨⟨⟩, mid, g₁, hfirst, hrest⟩ := yields_bind.1 h
      have hfoot₁ := footprint_of_yields_sentence hfoot (fun p hp => htargets p (.inl hp)) hfirst
      obtain ⟨hgrows₁, ⟨dest, hdest, hassignable⟩, hsupported, hfinds⟩ :=
        admissible_of_yields_sentence hg hfirst
      have hmid : mid ⊆ names' := subset_of_yields_sentences hrest
      have hnames : names ⊆ names' := subset_of_yields_sentences h
      refine List.forall_mem_cons.2 ⟨⟨⟨dest, hdest, ?_⟩, hsupported, ?_⟩, ?_⟩
      · exact hassignable.earlier hfoot hgrows fun hmem =>
          hpath s.target (by simp) dest hdest (hnames hmem)
      · exact hfinds.earlier hfoot₁ (hgrows.trans hgrows₁) fun path hp p hresolve hmem =>
          hpath path (List.mem_cons_of_mem _ hp) p hresolve (hmid hmem)
      · exact ih (hfirst.wellFormed hg) hfoot₁ (hgrows.trans hgrows₁)
          (fun p hp => htargets p (.inr hp)) hpaths hrest

end Build

/-! ### Scripts -/

/-- The paths of a text: the targets of its sentences, and what their expressions read. -/
def scriptPaths (script : String) : List String :=
  (scriptSentences script).flatMap fun s => s.target :: s.value.paths

/-- A text **mentions** a node: one of its paths leads to it. -/
def Context.Mentions (c : Context) (script : String) (name : String) : Prop :=
  ∃ path ∈ scriptPaths script, ∃ p, c.resolve path = .ok p ∧ p.node = name

theorem Context.mentions_iff {c : Context} {script name : String} :
    c.Mentions script name ↔
      some name ∈ (scriptPaths script).map fun path =>
        (c.resolve path).toOption.map Plug.node := by
  simp only [Mentions, List.mem_map, Option.map_eq_some_iff, toOption_eq_some_iff]

instance (c : Context) (script name : String) : Decidable (c.Mentions script name) :=
  decidable_of_iff _ Context.mentions_iff.symm

/-- A text compiles in a graph. -/
def Graph.Compiles (g : Graph) (c : Context) (script : String) : Prop :=
  ∃ count g', (compileScript c script).run.run Graph.host g = (.ok count, g')

/-- A text **was compiled** from `g` to `g'`: it is a script of sentences, which compiled and
created some nodes. -/
structure Compiled (c : Context) (script : String) (g : Graph) (created : List String)
    (g' : Graph) : Prop where
  parse_eq : Program.parse (script ++ "\n") = .ok ⟨(scriptSentences script).map .sentence⟩
  yields : (Build.sentences c (scriptSentences script)).Yields Graph.host [] g () created g'

/-- Only a script of sentences has sentences to be compiled. -/
theorem Program.eq_of_sentences? {p : Program} {ss : List Sentence} (h : p.sentences? = some ss) :
    p = ⟨ss.map .sentence⟩ := by
  obtain ⟨segments⟩ := p
  rw [Program.mk.injEq]
  induction segments generalizing ss with
  | nil =>
      cases h
      rfl
  | cons segment segments ih =>
      cases segment with
      | condition test yes no => simp [Program.sentences?] at h
      | sentence s =>
          simp only [Program.sentences?, List.mapM_cons, Option.bind_eq_bind, Option.bind_some,
            Option.bind_eq_some_iff, Option.pure_def, Option.some.injEq] at h
          obtain ⟨rest, hrest, rfl⟩ := h
          rw [List.map_cons, ih hrest]

/-- The sentences of a script of sentences. -/
theorem scriptSentences_eq {script : String} {ss : List Sentence}
    (h : Program.parse (script ++ "\n") = .ok ⟨ss.map .sentence⟩) :
    scriptSentences script = ss := by
  rw [scriptSentences, h]
  change (Program.sentences? _).getD [] = ss
  rw [Program.sentences?_eq_some rfl, Option.getD_some]

section Units

variable {c : Context} {script : String} {g g' : Graph} {created : List String}

/-- **A compilation that succeeds** is that of sentences. -/
theorem compileNodes_yields_iff :
    (compileNodes c script).Yields Graph.host g created g' ↔ Compiled c script g created g' := by
  rw [Attempt.yields_compileNodes]
  constructor
  · rintro ⟨p, hparse, hyields⟩
    unfold Build.program at hyields
    split at hyields
    · exact absurd hyields Build.not_yields_throw
    · next ss hss =>
      obtain rfl := Program.eq_of_sentences? hss
      obtain rfl := scriptSentences_eq hparse
      exact ⟨hparse, hyields⟩
  · rintro ⟨hparse, hyields⟩
    refine ⟨_, hparse, ?_⟩
    rwa [Build.program, Program.sentences?_eq_some rfl]

theorem compileScript_eq_ok_iff {count : Nat} :
    (compileScript c script).run.run Graph.host g = (.ok count, g') ↔
      ∃ created, Compiled c script g created g' ∧ created.length = count :=
  Attempt.yields_compileScript.trans
    (exists_congr fun _ => and_congr_left fun _ => compileNodes_yields_iff)

theorem Graph.compiles_iff :
    g.Compiles c script ↔ ∃ created g', Compiled c script g created g' := by
  simp only [Compiles, compileScript_eq_ok_iff]
  constructor
  · rintro ⟨count, g', created, h, -⟩
    exact ⟨created, g', h⟩
  · rintro ⟨created, g', h⟩
    exact ⟨_, g', created, h, rfl⟩

namespace Compiled

/-- The nodes created are those of the transcript. -/
theorem createdIn_eq (h : Compiled c script g created g') :
    createdIn ((compileScript c script).run.trace Graph.host g) = created := by
  have hrun : (compileNodes c script).run.run Graph.host g = (.ok created, g') :=
    compileNodes_yields_iff.2 h
  have hcourse := Dialogue.course_trace Graph.host (compileNodes c script).run g
  rw [compileScript, (Attempt.held_bind_ok hrun).2, createdIn_append]
  rw [hrun] at hcourse
  generalize (compileNodes c script).run.trace Graph.host g = events at hcourse
  cases compilation_of_course hcourse with
  | built hbuilds => exact List.append_nil _

/-- What was compiled leaves its footprint. -/
theorem footprint (h : Compiled c script g created g') :
    g.Footprint (c.Assigns (scriptSentences script)) created g' := by
  have hleaves := Build.leaves_sentences (c := c) (scriptSentences script)
    (Graph.Footprint.refl g (c.Assigns (scriptSentences script))) fun _ hp => hp
  rw [h.yields] at hleaves
  exact hleaves.footprint

/-- The graph has grown. -/
theorem grows (h : Compiled c script g created g') (hg : g.WellFormed) : g.Grows g' :=
  Build.grows_of_yields_sentences _ hg h.yields

/-- **What was compiled was admitted**, if it mentions none of the nodes created for it. -/
theorem admits (h : Compiled c script g created g') (hg : g.WellFormed)
    (hpaths : ∀ name ∈ created, ¬ c.Mentions script name) : g.Admits c script := by
  refine ⟨_, h.parse_eq, Build.admissible_of_yields_sentences (scriptSentences script) hg
    (.refl g (c.Assigns (scriptSentences script))) (.refl g) (fun _ hp => hp) ?_ h.yields⟩
  intro s hs path hpath p hp hmem
  exact hpaths p.node hmem ⟨path, List.mem_flatMap.2 ⟨s, hs, hpath⟩, p, hp, rfl⟩

end Compiled

namespace Graph.Admits

/-- **What is admitted compiles.** -/
theorem exists_compiled (h : g.Admits c script) (hg : g.WellFormed) :
    ∃ created g', Compiled c script g created g' := by
  obtain ⟨ss, hparse, hss⟩ := h
  obtain rfl := scriptSentences_eq hparse
  obtain ⟨created, g', hyields⟩ := Build.exists_yields_sentences (scriptSentences script) hg
    (.refl g (c.Assigns (scriptSentences script))) (.refl g) (fun _ hp => hp) hss
  exact ⟨created, g', hparse, hyields⟩

end Graph.Admits

/-- Whether a script is admitted depends on the nodes that are there and on the kinds of what they
store. -/
theorem Graph.Admits.congr (h : g.Admits c script)
    (hnodes : ∀ name, name ∈ g'.nodes ↔ name ∈ g.nodes)
    (hkinds : ∀ p, (g'.value? p).map Value.kind = (g.value? p).map Value.kind) :
    g'.Admits c script := by
  have hgrows : g.Grows g' := by
    intro name hname
    refine ⟨(hnodes name).2 hname, fun attr => ?_⟩
    obtain ⟨n, hn⟩ := exists_node_of_mem hname
    obtain ⟨m, hm⟩ := exists_node_of_mem ((hnodes name).2 hname)
    have hstored := congrArg Option.isSome (hkinds ⟨name, attr⟩)
    simp only [value?, hn, hm, Option.bind_some, Option.isSome_map] at hstored
    simp only [Present, hn, hm, Option.some.injEq, exists_eq_left',
      Std.ExtTreeMap.mem_iff_isSome_getElem?, hstored]
  obtain ⟨ss, hparse, hss⟩ := h
  refine ⟨ss, hparse, fun s hs => ?_⟩
  obtain ⟨⟨p, hp, hpresent, hkind⟩, hsupported, hfinds⟩ := hss s hs
  refine ⟨⟨p, hp, hgrows.present hpresent, fun v hv => ?_⟩, hsupported, hfinds.grows hgrows⟩
  have hsome : (g.value? p).map Value.kind = some v.kind := by
    rw [← hkinds p, hv, Option.map_some]
  obtain ⟨w, hw, hsame⟩ := Option.map_eq_some_iff.1 hsome
  exact hsame ▸ hkind w hw

/-- **Which scripts compile.** Let `g` be a reachable graph and let a text mention none of the nodes
that compiling it in `g` creates. It compiles exactly when `g` admits it: it is a script without
choices, every target may be assigned to in `g`, every expression can be built, and every path is
found in `g`.

Neither locks nor connections count: the text compiles in `g` exactly when it does in any other
graph with the same nodes and the same kinds of stored values. -/
theorem compileScript_succeeds_iff (hg : g.Reachable)
    (hpaths : ∀ name ∈ createdIn ((compileScript c script).run.trace Graph.host g),
      ¬ c.Mentions script name) :
    (g.Compiles c script ↔ g.Admits c script) ∧
      ∀ g₂ : Graph, g₂.Reachable →
        (∀ name ∈ createdIn ((compileScript c script).run.trace Graph.host g₂),
          ¬ c.Mentions script name) →
        (∀ name, name ∈ g₂.nodes ↔ name ∈ g.nodes) →
        (∀ p, (g₂.value? p).map Value.kind = (g.value? p).map Value.kind) →
        (g₂.Compiles c script ↔ g.Compiles c script) := by
  have hiff : ∀ {h : Graph}, h.Reachable →
      (∀ name ∈ createdIn ((compileScript c script).run.trace Graph.host h),
        ¬ c.Mentions script name) → (h.Compiles c script ↔ h.Admits c script) := by
    intro h hh havoid
    rw [Graph.compiles_iff]
    constructor
    · rintro ⟨created, h', hcompiled⟩
      rw [hcompiled.createdIn_eq] at havoid
      exact hcompiled.admits hh.wellFormed havoid
    · intro hadmits
      exact hadmits.exists_compiled hh.wellFormed
  refine ⟨hiff hg hpaths, fun g₂ hg₂ hpaths₂ hnodes hkinds => ?_⟩
  rw [hiff hg hpaths, hiff hg₂ hpaths₂]
  exact ⟨fun h => h.congr (fun name => (hnodes name).symm) fun p => (hkinds p).symm,
    fun h => h.congr hnodes hkinds⟩

end Units

/-- A remainder is taken of the first input of a construct, whose target is locked and whose input
is connected. Neither stands in the way. -/
theorem compileScript_succeeds_iff_lockedDoubling :
    Graph.lockedDoubling.isLocked ⟨"out", "ty"⟩ = .ok true ∧
    (Graph.lockedDoubling.source? ⟨"e", "input[0]"⟩).isSome = true ∧
    Graph.lockedDoubling.Compiles ⟨"e", {}⟩ "out.ty = max(.I[0], 1) % (3);" := by
  have hpaths : ∀ name ∈ createdIn ((compileScript ⟨"e", {}⟩
      "out.ty = max(.I[0], 1) % (3);").run.trace Graph.host Graph.lockedDoubling),
        ¬ Context.Mentions ⟨"e", {}⟩ "out.ty = max(.I[0], 1) % (3);" name := by
    decide +kernel
  refine ⟨toOption_eq_some_iff.1 (by decide +kernel), by decide +kernel,
    (compileScript_succeeds_iff Graph.reachable_lockedDoubling hpaths).1.2 ?_⟩
  refine ⟨[⟨"out.ty", .binary .modulo (.call "max" [.path ".I[0]", .number 1.0])
    (.brackets (.number 3.0))⟩], toOption_eq_some_iff.1 (by decide +kernel), ?_⟩
  have hpresent : ∀ p v, (Graph.lockedDoubling.getAttribute p).toOption = some v →
      Graph.lockedDoubling.Present p := by
    intro p v hv
    obtain ⟨n, hn, -⟩ := Graph.getAttribute_eq_ok_iff.1 (toOption_eq_some_iff.1 hv)
    exact Graph.present_iff.2 ⟨n, hn⟩
  simp only [List.mem_singleton, forall_eq]
  refine ⟨⟨⟨"out", "ty"⟩, toOption_eq_some_iff.1 (by decide +kernel), ?_⟩, ?_, ?_⟩
  · exact Graph.assignable_iff.2 ⟨.double 0.0, toOption_eq_some_iff.1 (by decide +kernel), rfl⟩
  · refine ⟨⟨3.0, rfl, by decide +kernel, by decide +kernel⟩, ?_, trivial⟩
    exact ⟨.inl ⟨.inr rfl, rfl⟩, trivial, trivial, trivial⟩
  · intro path hpath
    obtain rfl : path = ".I[0]" := by simpa [Expr.paths, Expr.pathsAll] using hpath
    exact ⟨⟨"e", "input[0]"⟩, toOption_eq_some_iff.1 (by decide +kernel),
      hpresent _ (.double 0.0) (by decide +kernel)⟩

end RigScript
