import RigScript.Proofs.Compile.Run
import RigScript.Proofs.Graph.Frame

/-!
# What deleting a construct does to values

A compiled construct is deleted, and its connections go with it. A plug elsewhere that was fed by
the construct is then released: it falls back on what it stores. This module says exactly when the
values of all other nodes survive: when every plug that was fed by the construct falls back on the
very number it was fed. Values that the construct has no part in always survive, and they all do
when nothing is fed by the construct and no path of its script reads from it.

## Main definitions

* `RigScript.Graph.FedBy`: a plug has its source on a given node
* `RigScript.Graph.Detached`: no other node is fed by a given one

## Main results

* `RigScript.Graph.HasValue.transfer`: values are settled locally
* `RigScript.Build.keeps_lower`: an expression that does not read from a node leaves it detached
* `RigScript.commit_keeps_values_iff`: **when committing a conversion keeps the values**
-/

namespace RigScript

open Relation

namespace Graph

variable {g g' : Graph} {name : String} {p q : Plug} {x : Float}

/-- A plug is **fed by** a node when its source is on that node. -/
def FedBy (g : Graph) (name : String) (p : Plug) : Prop :=
  ∃ source, g.source? p = some source ∧ source.node = name

/-! ### Locality -/

/-- **Values are settled locally.** Let a set of plugs be such that at each of them either the
recipe is the same in both graphs and needs only plugs of the set, or its values are known to carry
over. Then the values of all plugs of the set carry over. -/
theorem HasValue.transfer (inside : Plug → Prop)
    (hstep : ∀ p r, inside p → g.recipe p = .ok r →
      (g'.recipe p = .ok r ∧ ∀ q ∈ r.needs, inside q) ∨
        ∀ y, g.HasValue p y → g'.HasValue p y)
    (h : g.HasValue p x) (hp : inside p) : g'.HasValue p x := by
  revert hp
  refine h.recipe_induction fun p r x hr hd hp => ?_
  obtain ⟨hr', hneeds⟩ | hcarry := hstep p r hp hr
  · exact .of_recipe hr' (hd.mono fun q hq y hy => hy.2 (hneeds q hq))
  · exact hcarry x (.of_recipe hr (hd.mono fun q _ y hy => hy.1))

/-- The needs of a plug that is not fed by a node and not on it are not on it either. -/
theorem node_ne_of_mem_needs {r : Recipe} (hr : g.recipe p = .ok r) (hp : p.node ≠ name)
    (hfed : ¬ g.FedBy name p) (hq : q ∈ r.needs) : q.node ≠ name := by
  obtain ⟨source, hs, rfl⟩ | ⟨-, n, -, hf | ⟨-, v, y, -, -, rfl⟩⟩ := recipe_cases hr
  · obtain rfl : q = source := by simpa [Recipe.needs] using hq
    exact fun hnode => hfed ⟨q, hs, hnode⟩
  · rw [Node.needs_of_formula? hf] at hq
    obtain ⟨attr, -, rfl⟩ := List.mem_map.1 hq
    exact hp
  · simp [Recipe.needs] at hq

/-! ### Deleting a node -/

/-- The connections that are left. -/
theorem source?_deleteNode (h : g.perform (.deleteNode name) = .ok ((), g')) (p : Plug) :
    g'.source? p = (g.source? p).filter fun source => p.node != name && source.node != name := by
  obtain ⟨-, rfl⟩ := perform_deleteNode.1 h
  exact Std.ExtTreeMap.getElem?_filter'

/-- The nodes that are left. -/
theorem nodes_deleteNode (h : g.perform (.deleteNode name) = .ok ((), g')) {m : String}
    (hm : m ≠ name) : g'.nodes[m]? = g.nodes[m]? := by
  obtain ⟨-, rfl⟩ := perform_deleteNode.1 h
  rw [Std.ExtTreeMap.getElem?_erase, if_neg]
  rw [Std.LawfulEqOrd.compare_eq_iff_eq]
  exact hm.symm

/-- A plug that was not fed by the deleted node keeps its recipe. -/
theorem recipe_deleteNode (h : g.perform (.deleteNode name) = .ok ((), g')) (hp : p.node ≠ name)
    (hfed : ¬ g.FedBy name p) : g'.recipe p = g.recipe p := by
  have hsource : g'.connections[p]? = g.connections[p]? := by
    have hleft : g'.connections[p]? = _ := source?_deleteNode h p
    rw [hleft]
    cases hs : g.source? p with
    | none => exact hs.symm
    | some source =>
        have hne : source.node ≠ name := fun hnode => hfed ⟨source, hs, hnode⟩
        rw [Option.filter_some, if_pos (by simp [hp, hne])]
        exact hs.symm
  rw [recipe, recipe, hsource, node, node, nodes_deleteNode h hp]

/-- **A released plug falls back on what it stores**, unless it is an output, which goes back to
its formula. -/
theorem hasValue_of_released (h : g.perform (.deleteNode name) = .ok ((), g')) (hp : p.node ≠ name)
    (hfed : g.FedBy name p) (hout : ¬ g.IsOutput p) :
    g'.HasValue p x ↔ (g.value? p).bind Value.toFloat? = some x := by
  have hsource : g'.source? p = none := by
    obtain ⟨source, hs, hnode⟩ := hfed
    rw [source?_deleteNode h, hs, Option.filter_some, if_neg (by simp [hnode])]
  have hnodes := nodes_deleteNode h hp
  have hnotOut : ∀ n, g.nodes[p.node]? = some n → p.attr ∉ n.kind.outputs := fun n hn hmem =>
    hout ⟨n.kind, by rw [kind?, hn]; rfl, hmem⟩
  constructor
  · intro hv
    obtain ⟨r, hr, hd⟩ := hasValue_iff.1 hv
    obtain ⟨s, hs, -⟩ | ⟨-, n, hn, hf | ⟨-, v, y, hattr, hy, rfl⟩⟩ := recipe_cases hr
    · simp [hsource] at hs
    · rw [hnodes] at hn
      exact absurd (Node.mem_outputs_of_formula? hf) (hnotOut n hn)
    · obtain rfl : y = x := hd
      rw [hnodes] at hn
      simp [value?, hn, hattr, hy]
  · intro hv
    obtain ⟨v, hvalue, hx⟩ := Option.bind_eq_some_iff.1 hv
    obtain ⟨n, hn, hattr⟩ := Option.bind_eq_some_iff.1 hvalue
    exact .stored hsource (hnodes.trans hn) (hnotOut n hn) hattr hx

/-- **When deleting a node keeps the values of all others**: exactly when each plug that it fed has
afterwards the value that it was fed. -/
theorem values_kept_iff (h : g.perform (.deleteNode name) = .ok ((), g')) :
    (∀ p : Plug, p.node ≠ name → ∀ x, g.HasValue p x ↔ g'.HasValue p x) ↔
      ∀ p source : Plug, p.node ≠ name → g.source? p = some source → source.node = name →
        ∀ x, g.HasValue source x ↔ g'.HasValue p x := by
  have hdriven : ∀ p source : Plug, g.source? p = some source →
      ∀ x, g.HasValue p x ↔ g.HasValue source x := by
    intro p source hs x
    rw [hasValue_iff, recipe_of_source hs]
    simp [Recipe.Denotes]
  constructor
  · intro hkept p source hp hs hnode x
    rw [← hdriven p source hs, hkept p hp]
  · intro hcond p hp x
    -- A fed plug carries its values over by assumption, any other one keeps its recipe.
    constructor
    · refine fun hv => hv.transfer (fun p => p.node ≠ name) (fun p r hp hr => ?_) hp
      by_cases hfed : g.FedBy name p
      · obtain ⟨source, hs, hnode⟩ := hfed
        refine .inr fun y hy => (hcond p source hp hs hnode y).1 ((hdriven p source hs y).1 hy)
      · exact .inl ⟨(recipe_deleteNode h hp hfed).trans hr,
          fun q hq => node_ne_of_mem_needs hr hp hfed hq⟩
    · refine fun hv => hv.transfer (fun p => p.node ≠ name) (fun p r hp hr => ?_) hp
      by_cases hfed : g.FedBy name p
      · obtain ⟨source, hs, hnode⟩ := hfed
        refine .inr fun y hy => (hdriven p source hs y).2 ((hcond p source hp hs hnode y).2 hy)
      · rw [recipe_deleteNode h hp hfed] at hr
        exact .inl ⟨hr, fun q hq => node_ne_of_mem_needs hr hp hfed hq⟩

/-- A plug that reaches nothing on the deleted node keeps its value. -/
theorem values_kept_of_unreached (h : g.perform (.deleteNode name) = .ok ((), g'))
    (hp : ∀ q, ReflTransGen g.DependsOn p q → q.node ≠ name) :
    g.HasValue p x ↔ g'.HasValue p x := by
  -- On the way from `p` nothing is fed by the node, so all recipes there are the same.
  have hrecipe : ∀ p, (∀ q, ReflTransGen g.DependsOn p q → q.node ≠ name) →
      g'.recipe p = g.recipe p := by
    intro p hp
    refine recipe_deleteNode h (hp p .refl) ?_
    rintro ⟨source, hs, hnode⟩
    exact hp source (.single (.source hs)) hnode
  have hneeds : ∀ p r, (∀ q, ReflTransGen g.DependsOn p q → q.node ≠ name) →
      g.recipe p = .ok r → ∀ q ∈ r.needs, ∀ q', ReflTransGen g.DependsOn q q' → q'.node ≠ name :=
    fun p r hp hr q hq q' hq' => hp q' (.head (dependsOn_iff.2 ⟨r, hr, hq⟩) hq')
  constructor
  · refine fun hv => hv.transfer (fun p => ∀ q, ReflTransGen g.DependsOn p q → q.node ≠ name)
      (fun p r hp hr => .inl ⟨(hrecipe p hp).trans hr, hneeds p r hp hr⟩) hp
  · refine fun hv => hv.transfer (fun p => ∀ q, ReflTransGen g.DependsOn p q → q.node ≠ name)
      (fun p r hp hr => ?_) hp
    rw [hrecipe p hp] at hr
    exact .inl ⟨hr, hneeds p r hp hr⟩

/-! ### Detached nodes -/

/-- A node is **detached** when it is there and feeds no other node. -/
def Detached (g : Graph) (name : String) : Prop :=
  name ∈ g.nodes ∧ ∀ p : Plug, p.node ≠ name → ¬ g.FedBy name p

/-- Deleting a detached node keeps all values elsewhere. -/
theorem Detached.values_kept (hd : g.Detached name)
    (h : g.perform (.deleteNode name) = .ok ((), g')) (hp : p.node ≠ name) :
    g.HasValue p x ↔ g'.HasValue p x :=
  (values_kept_iff h).2
    (fun p source hp hs hnode => absurd ⟨source, hs, hnode⟩ (hd.2 p hp)) p hp x

end Graph

/-- A request **spares** a node when it neither connects from it nor deletes it. -/
def Request.Spares (name : String) : Request → Prop
  | .connect source _ _ => source.node ≠ name
  | .deleteNode node => node ≠ name
  | _ => True

namespace Graph

variable {g g' : Graph} {name : String}

/-- A node stays detached under requests that spare it. -/
theorem Detached.perform {r : Request} {reply : r.Reply} (hd : g.Detached name)
    (hr : g.perform r = .ok (reply, g')) (hspare : r.Spares name) : g'.Detached name := by
  obtain ⟨hmem, hfree⟩ := hd
  cases r with
  | createNode kind =>
      obtain ⟨-, rfl⟩ := perform_createNode.1 hr
      exact ⟨mem_insert_node.2 (.inr hmem), hfree⟩
  | setAttribute p v =>
      obtain ⟨n, -, -, -, rfl⟩ := perform_setAttribute.1 hr
      exact ⟨mem_insert_node.2 (.inr hmem), hfree⟩
  | setLocked p locked =>
      obtain ⟨n, -, rfl⟩ := perform_setLocked.1 hr
      exact ⟨mem_insert_node.2 (.inr hmem), hfree⟩
  | createKeyframe curve key =>
      obtain ⟨n, -, rfl⟩ := perform_createKeyframe.1 hr
      exact ⟨mem_insert_node.2 (.inr hmem), hfree⟩
  | setExtrapolation curve pre post =>
      obtain ⟨n, -, rfl⟩ := perform_setExtrapolation.1 hr
      exact ⟨mem_insert_node.2 (.inr hmem), hfree⟩
  | connect source dest force =>
      obtain ⟨-, -, -, rfl⟩ := perform_connect.1 hr
      refine ⟨hmem, ?_⟩
      rintro p hp ⟨s, hs, hnode⟩
      simp only [source?, Std.ExtTreeMap.getElem?_insert] at hs
      split at hs
      · cases hs
        exact hspare hnode
      · exact hfree p hp ⟨s, hs, hnode⟩
  | disconnect dest =>
      obtain ⟨-, rfl⟩ := perform_disconnect.1 hr
      refine ⟨hmem, ?_⟩
      rintro p hp ⟨s, hs, hnode⟩
      simp only [source?, Std.ExtTreeMap.getElem?_erase] at hs
      split at hs
      · cases hs
      · exact hfree p hp ⟨s, hs, hnode⟩
  | deleteNode node =>
      refine ⟨?_, ?_⟩
      · rw [Std.ExtTreeMap.mem_iff_isSome_getElem?] at hmem ⊢
        rwa [nodes_deleteNode hr (Ne.symm hspare)]
      · rintro p hp ⟨s, hs, hnode⟩
        rw [source?_deleteNode hr, Option.filter_eq_some_iff] at hs
        exact hfree p hp ⟨s, hs.1, hnode⟩
  | getAttribute p | isLocked p | listConstructs p | listIncoming p =>
      obtain rfl := eq_of_asks rfl hr
      exact ⟨hmem, hfree⟩
  | clearSelection =>
      obtain rfl := perform_clearSelection.1 hr
      exact ⟨hmem, hfree⟩

end Graph

/-! ### Expressions that do not read from a node -/

mutual

/-- The paths of an expression. -/
def Expr.paths : Expr → List String
  | .number _ => []
  | .path text => [text]
  | .unary _ e => e.paths
  | .binary _ left right => left.paths ++ right.paths
  | .call _ args => Expr.pathsAll args
  | .brackets e => e.paths

/-- The paths of several expressions. -/
def Expr.pathsAll : List Expr → List String
  | [] => []
  | e :: es => e.paths ++ Expr.pathsAll es

end

/-- An operand is **off** a node when it is a number or a plug of another node. -/
def Operand.Off (name : String) : Operand → Prop
  | .constant _ => True
  | .plug p => p.node ≠ name

namespace Build

open RigScript.Graph

variable {c : Context} {name : String} {a b : Operand}

/-- A request that spares the node. -/
theorem keeps_ask {r : Request} (h : r.Spares name) :
    Keeps (Detached · name) (ask r) fun _ => True :=
  .ask fun hd hr => hd.perform hr h

/-- A new node is another one. -/
theorem keeps_create (kind : NodeKind) : Keeps (Detached · name) (create kind) (· ≠ name) := by
  intro names g node names' g' hd hrun
  obtain ⟨hr, -⟩ := yields_create.1 hrun
  have hperform := Graph.host_respond_eq_ok.1 hr
  refine ⟨hd.perform hperform trivial, ?_⟩
  obtain ⟨rfl, -⟩ := perform_createNode.1 hperform
  rintro rfl
  exact g.freshName_notMem kind hd.1

theorem keeps_supply {dest : Plug} (ha : a.Off name) :
    Keeps (Detached · name) (supply a dest) fun _ => True := by
  cases a with
  | constant x => exact keeps_ask trivial
  | plug p => exact keeps_ask ha

theorem keeps_multiplyDivide {divide : Bool} (ha : a.Off name) (hb : b.Off name) :
    Keeps (Detached · name) (multiplyDivide a b divide) (Operand.Off name) := by
  refine .bind (keeps_create _) fun node hnode => ?_
  have hwire : Keeps (Detached · name) (do
      supply a ⟨node, MultiplyDivide.input1⟩
      supply b ⟨node, MultiplyDivide.input2⟩
      return .plug ⟨node, MultiplyDivide.output⟩ : Build Operand) (Operand.Off name) := by
    refine .seq (keeps_supply ha) ?_
    refine .seq (keeps_supply hb) ?_
    exact .pure hnode
  cases divide with
  | false => exact hwire
  | true => exact .seq (keeps_ask trivial) hwire

theorem keeps_plusMinus {subtract : Bool} (ha : a.Off name) (hb : b.Off name) :
    Keeps (Detached · name) (plusMinus a b subtract) (Operand.Off name) := by
  refine .bind (keeps_create _) fun node hnode => ?_
  refine .seq (keeps_ask trivial) ?_
  refine .seq (keeps_supply ha) ?_
  refine .seq (keeps_supply hb) ?_
  exact .pure hnode

theorem keeps_modulo {epsilon : Float} (ha : a.Off name) :
    Keeps (Detached · name) (modulo epsilon a b) (Operand.Off name) := by
  cases b with
  | plug p => exact .throw
  | constant divisor =>
      simp only [modulo]
      split
      · have hfail : Keeps (Detached · name)
            (throw (.unsupported (.divisor divisor)) : Build Unit) fun _ => False := .throw
        exact .bind hfail fun _ hfalse => hfalse.elim
      · refine .bind (keeps_create _) fun node hnode => ?_
        refine .seq (keeps_ask trivial) ?_
        refine .seq (keeps_ask trivial) ?_
        refine .seq (keeps_ask trivial) ?_
        refine .seq (keeps_supply ha) ?_
        exact .pure hnode

theorem keeps_boundedAbove (ha : a.Off name) (hb : b.Off name) :
    Keeps (Detached · name) (boundedAbove a b) (Operand.Off name) := by
  refine .bind (keeps_create _) fun node hnode => ?_
  refine .seq (keeps_supply ha) ?_
  refine .seq (keeps_ask trivial) ?_
  refine .seq (keeps_supply hb) ?_
  exact .pure hnode

theorem keeps_boundedBelow (ha : a.Off name) (hb : b.Off name) :
    Keeps (Detached · name) (boundedBelow a b) (Operand.Off name) := by
  refine .bind (keeps_create _) fun node hnode => ?_
  refine .seq (keeps_supply ha) ?_
  refine .seq (keeps_ask trivial) ?_
  refine .seq (keeps_supply hb) ?_
  exact .pure hnode

theorem keeps_sine (ha : a.Off name) :
    Keeps (Detached · name) (sine a) (Operand.Off name) := by
  refine .bind (keeps_create _) fun doubler hdoubler => ?_
  refine .seq (keeps_supply ha) ?_
  refine .seq (keeps_ask trivial) ?_
  refine .bind (keeps_create _) fun quat hquat => ?_
  refine .seq (keeps_ask hdoubler) ?_
  exact .pure hquat

theorem keeps_negate (ha : a.Off name) :
    Keeps (Detached · name) (negate a) (Operand.Off name) := by
  cases a with
  | constant x => exact .pure trivial
  | plug p => exact keeps_multiplyDivide ha trivial

theorem keeps_combine {op : BinaryOp} (ha : a.Off name) (hb : b.Off name) :
    Keeps (Detached · name) (combine c op a b) (Operand.Off name) := by
  cases op with
  | add => exact keeps_plusMinus ha hb
  | subtract => exact keeps_plusMinus ha hb
  | multiply => exact keeps_multiplyDivide ha hb
  | divide => exact keeps_multiplyDivide ha hb
  | modulo => exact keeps_modulo ha
  | equal => exact .throw
  | unequal => exact .throw

theorem keeps_apply {text : String} {f : Builtin} {operands : List Operand}
    (h : ∀ a ∈ operands, a.Off name) :
    Keeps (Detached · name) (apply text f operands) (Operand.Off name) := by
  unfold apply
  split
  · exact keeps_boundedAbove (h _ (by simp)) (h _ (by simp))
  · exact keeps_boundedBelow (h _ (by simp)) (h _ (by simp))
  · exact keeps_sine (h _ (by simp))
  · exact .throw

theorem keeps_checkCall {text : String} {found : Nat} :
    Keeps (Detached · name) (checkCall text found) fun _ => True := by
  unfold checkCall
  split
  · exact .throw
  · split
    · exact .pure trivial
    · exact .throw

theorem keeps_resolve {path : String} :
    Keeps (Detached · name) (resolve c path) fun p => c.resolve path = .ok p := by
  unfold resolve
  split
  · next p hp => exact .pure hp
  · exact .throw

mutual

/-- **An expression that does not read from a node leaves it detached**, and stands for something
off the node. -/
theorem keeps_lower (e : Expr)
    (h : ∀ path ∈ e.paths, ∀ p, c.resolve path = .ok p → p.node ≠ name) :
    Keeps (Detached · name) (lower c e) (Operand.Off name) := by
  match e with
  | .number x => exact .pure trivial
  | .path text =>
      refine .bind keeps_resolve fun p hp => ?_
      exact .pure (h text (by simp [Expr.paths]) p hp)
  | .brackets e => exact keeps_lower e h
  | .unary .plus e => exact keeps_lower e h
  | .unary .minus e => exact .bind (keeps_lower e h) fun a ha => keeps_negate ha
  | .binary op left right =>
      have hboth : Keeps (Detached · name) (do
          let a ← lower c left
          let b ← lower c right
          combine c op a b : Build Operand) (Operand.Off name) := by
        refine .bind (keeps_lower left fun path hpath => h path ?_) fun a ha => ?_
        · simp [Expr.paths, hpath]
        refine .bind (keeps_lower right fun path hpath => h path ?_) fun b hb => ?_
        · simp [Expr.paths, hpath]
        exact keeps_combine ha hb
      cases op with
      | equal => exact .throw
      | unequal => exact .throw
      | _ => exact hboth
  | .call text args =>
      refine .bind keeps_checkCall fun f _ => ?_
      exact .bind (keeps_lowerAll args h) fun operands hoperands => keeps_apply hoperands

/-- The same for several expressions. -/
theorem keeps_lowerAll (es : List Expr)
    (h : ∀ path ∈ Expr.pathsAll es, ∀ p, c.resolve path = .ok p → p.node ≠ name) :
    Keeps (Detached · name) (lowerAll c es) fun operands => ∀ a ∈ operands, a.Off name := by
  match es with
  | [] => exact .pure (by simp)
  | e :: es =>
      refine .bind (keeps_lower e fun path hpath => h path ?_) fun a ha => ?_
      · simp [Expr.pathsAll, hpath]
      refine .bind (keeps_lowerAll es fun path hpath => h path ?_) fun operands hoperands => ?_
      · simp [Expr.pathsAll, hpath]
      exact .pure (by simpa using ⟨ha, hoperands⟩)

end

theorem keeps_assign {dest : Plug} (ha : a.Off name) :
    Keeps (Detached · name) (assign dest a) fun _ => True := by
  cases a with
  | constant x => exact .seq (keeps_ask trivial) (keeps_ask trivial)
  | plug p => exact keeps_ask ha

theorem keeps_destination {target : String} :
    Keeps (Detached · name) (destination c target) fun _ => True := by
  refine .bind keeps_resolve fun p _ => ?_
  refine .bind (keeps_ask trivial) fun v _ => ?_
  split
  · exact .pure trivial
  · exact .throw

/-- A sentence whose expression does not read from a node leaves it detached. -/
theorem keeps_sentence {s : Sentence}
    (h : ∀ path ∈ s.value.paths, ∀ p, c.resolve path = .ok p → p.node ≠ name) :
    Keeps (Detached · name) (sentence c s) fun _ => True := by
  refine .bind keeps_destination fun dest _ => ?_
  refine .bind (keeps_lower s.value h) fun a ha => ?_
  refine .bind (keeps_ask trivial) fun locked _ => ?_
  split
  · exact .seq (keeps_ask trivial) (keeps_assign ha)
  · exact keeps_assign ha

/-- So do sentences of which none reads from it. -/
theorem keeps_sentences {ss : List Sentence}
    (h : ∀ s ∈ ss, ∀ path ∈ s.value.paths, ∀ p, c.resolve path = .ok p → p.node ≠ name) :
    Keeps (Detached · name) (sentences c ss) fun _ => True := by
  induction ss with
  | nil => exact .pure trivial
  | cons s ss ih =>
      refine .seq (keeps_sentence (h s (by simp))) ?_
      exact ih fun s' hs' => h s' (List.mem_cons_of_mem s hs')

end Build

/-! ### Conversions -/

/-- The sentences of the script that a construct holds, if it holds a script of sentences only. -/
def Graph.script? (g : Graph) (c : Context) : Option (List Sentence) := do
  match ← g.value? ⟨c.identity, c.options.scriptAttribute⟩ with
  | .string text => (← (Program.parse (text ++ "\n")).toOption).sentences?
  | _ => none

namespace Attempt

variable {c : Context} {g g' : Graph} {created : List String}

/-- Committing is deleting the construct. -/
theorem yields_commit :
    (commit c created).Yields Graph.host g () g' ↔
      g.perform (.deleteNode c.identity) = .ok ((), g') := by
  have hsend : (Dialogue.send (.deleteNode c.identity)).run Graph.host g =
      Graph.host.respond g (.deleteNode c.identity) := rfl
  rw [← Graph.host_respond_eq_ok]
  simp only [Yields, commit, ExceptT.run_mk, Dialogue.bind_eq, Dialogue.run_bind, hsend]
  obtain ⟨answer, g₁⟩ := Graph.host.respond g (.deleteNode c.identity)
  cases answer with
  | ok reply => simp [Dialogue.pure_eq]
  | error e => simp [Dialogue.pure_eq, Dialogue.run_bind]

/-- The script that is read is the text stored on the construct. -/
theorem yields_readScript {text : String} (h : (readScript c).Yields Graph.host g text g') :
    g.value? ⟨c.identity, c.options.scriptAttribute⟩ = some (.string text) ∧ g = g' := by
  obtain ⟨v, g₁, hget, h⟩ := yields_bind.1 h
  obtain ⟨hget, rfl⟩ := Graph.perform_getAttribute.1 (Graph.host_respond_eq_ok.1
    (yields_ask.1 hget))
  obtain ⟨n, hn, rfl⟩ := Graph.getAttribute_eq_ok_iff.1 hget
  obtain ⟨hnode, -⟩ := Graph.checkAttr_eq_ok_iff.1 hn
  split at h
  · next t ht =>
    obtain ⟨rfl, rfl⟩ := yields_pure.1 h
    refine ⟨?_, rfl⟩
    rw [Graph.value?, hnode]
    cases hattr : n.attributes[c.options.scriptAttribute]? with
    | none => simp [hattr] at ht
    | some v => simpa [hattr] using ht
  · exact absurd h not_yields_throw

/-- A compiled construct holds a script of sentences, and they were built. -/
theorem yields_constructNodes (h : (constructNodes c).Yields Graph.host g created g') :
    ∃ ss, g.script? c = some ss ∧
      (Build.sentences c ss).Yields Graph.host [] g () created g' := by
  obtain ⟨text, _, hread, hnodes⟩ := yields_bind.1 h
  obtain ⟨hvalue, rfl⟩ := yields_readScript hread
  obtain ⟨p, hparse, hbuild⟩ := yields_compileNodes.1 hnodes
  unfold Build.program at hbuild
  split at hbuild
  · exact absurd hbuild Build.not_yields_throw
  · next ss hss => exact ⟨ss, by simp [Graph.script?, hvalue, hparse, Except.toOption, hss], hbuild⟩

end Attempt

/-- **When committing a conversion keeps the values.** Let a construct be compiled, which makes
`compiled` out of `g`, and then deleted, which leaves `committed`.

* The values of all other nodes are kept exactly when every plug that the construct feeds has
  afterwards the value that it was fed.
* Such a plug falls back on the number it stores, unless it is an output of a computing node.
* A plug that reaches no plug of the construct keeps its value.
* All values are kept when the construct fed no other node to begin with and no path of its script
  is one of its own plugs. -/
theorem commit_keeps_values_iff {o : Options} {name : String} {created : List String}
    {g compiled committed : Graph}
    (hbuild : (constructNodes ⟨name, o⟩).run.run Graph.host g = (.ok created, compiled))
    (hcommit : (commit ⟨name, o⟩ created).run.run Graph.host compiled = (.ok (), committed)) :
    ((∀ p : Plug, p.node ≠ name →
        ∀ x, compiled.evaluate p = .ok x ↔ committed.evaluate p = .ok x) ↔
      ∀ p source : Plug, p.node ≠ name → compiled.source? p = some source →
        source.node = name → ∀ x, compiled.evaluate source = .ok x ↔ committed.evaluate p = .ok x) ∧
    (∀ p : Plug, p.node ≠ name → compiled.FedBy name p → ¬ compiled.IsOutput p →
      ∀ x, committed.evaluate p = .ok x ↔ (compiled.value? p).bind Value.toFloat? = some x) ∧
    (∀ p : Plug, (∀ q, ReflTransGen compiled.DependsOn p q → q.node ≠ name) →
      ∀ x, compiled.evaluate p = .ok x ↔ committed.evaluate p = .ok x) ∧
    (g.Detached name →
      (∀ ss, g.script? ⟨name, o⟩ = some ss → ∀ s ∈ ss, ∀ path ∈ s.value.paths,
        ∀ q, (⟨name, o⟩ : Context).resolve path = .ok q → q.node ≠ name) →
      ∀ p : Plug, p.node ≠ name →
        ∀ x, compiled.evaluate p = .ok x ↔ committed.evaluate p = .ok x) := by
  have hdelete : compiled.perform (.deleteNode name) = .ok ((), committed) :=
    Attempt.yields_commit.1 hcommit
  obtain ⟨ss, hscript, hsentences⟩ := Attempt.yields_constructNodes hbuild
  simp only [Graph.evaluate_eq_ok_iff]
  refine ⟨Graph.values_kept_iff hdelete, ?_, ?_, ?_⟩
  · exact fun p hp hfed hout x => Graph.hasValue_of_released hdelete hp hfed hout
  · exact fun p hp x => Graph.values_kept_of_unreached hdelete hp
  · intro hdetached hreads p hp x
    have hdetached' := (Build.keeps_sentences (hreads ss hscript) hdetached hsentences).1
    exact hdetached'.values_kept hdelete hp

/-- A construct whose script is `out.ty = .I[0] * 2;`, before anything is connected to it. -/
def Graph.unwiredDoubling : Graph :=
  (((((Graph.empty.addNode "ctrl" (.other "transform")).addAttribute ⟨"ctrl", "tx"⟩
    (.double 3.0)).addNode "out" (.other "transform")).addAttribute ⟨"out", "ty"⟩
    (.double 0.0)).addNode "e" (.other "expression")).addAttribute ⟨"e", "expression"⟩
    (.string "out.ty = .I[0] * 2;")

/-- The construct with a control, which is at three, connected to its first input. -/
def Graph.doubling : Graph :=
  (unwiredDoubling.addConnection ⟨"ctrl", "tx"⟩ ⟨"e", "input[0]"⟩).toOption.getD unwiredDoubling

theorem Graph.reachable_doubling : doubling.Reachable := by
  have hunwired : unwiredDoubling.Reachable :=
    .addAttribute _ _ (.addNode _ _ (.addAttribute _ _ (.addNode _ _ (.addAttribute _ _
      (.addNode _ _ .empty)))))
  exact hunwired.getD hunwired.addConnection

/-- The same graph once the script is compiled. -/
def Graph.doublingCompiled : Graph :=
  ((constructNodes ⟨"e", {}⟩).run.run Graph.host Graph.doubling).2

/-- The same graph once the construct is deleted as well. -/
def Graph.doublingCommitted : Graph :=
  ((commit ⟨"e", {}⟩ ["multiplyDivide1"]).run.run Graph.host Graph.doublingCompiled).2

/-- The network of the script reads from the construct, so the value of the target is lost: it is
six once the script is compiled, and zero once the construct is gone. -/
theorem commit_keeps_values_iff_doubling :
    Graph.doubling.Reachable ∧
    (constructNodes ⟨"e", {}⟩).run.run Graph.host Graph.doubling =
      (.ok ["multiplyDivide1"], Graph.doublingCompiled) ∧
    (commit ⟨"e", {}⟩ ["multiplyDivide1"]).run.run Graph.host Graph.doublingCompiled =
      (.ok (), Graph.doublingCommitted) ∧
    Graph.doublingCompiled.evaluate ⟨"out", "ty"⟩ = .ok 6.0 ∧
    Graph.doublingCommitted.evaluate ⟨"out", "ty"⟩ = .ok 0.0 ∧
    ¬ ∀ p source : Plug, p.node ≠ "e" → Graph.doublingCompiled.source? p = some source →
      source.node = "e" → ∀ x, Graph.doublingCompiled.evaluate source = .ok x ↔
        Graph.doublingCommitted.evaluate p = .ok x := by
  have hbuild : (constructNodes ⟨"e", {}⟩).run.run Graph.host Graph.doubling =
      (.ok ["multiplyDivide1"], Graph.doublingCompiled) :=
    Prod.ext (toOption_eq_some_iff.1 (by decide +kernel)) rfl
  have hcommit : (commit ⟨"e", {}⟩ ["multiplyDivide1"]).run.run Graph.host
      Graph.doublingCompiled = (.ok (), Graph.doublingCommitted) :=
    Prod.ext (toOption_eq_some_iff.1 (by decide +kernel)) rfl
  have hbefore : Graph.doublingCompiled.evaluate ⟨"out", "ty"⟩ = .ok 6.0 :=
    toOption_eq_some_iff.1 (by decide +kernel)
  have hafter : Graph.doublingCommitted.evaluate ⟨"out", "ty"⟩ = .ok 0.0 :=
    toOption_eq_some_iff.1 (by decide +kernel)
  refine ⟨Graph.reachable_doubling, hbuild, hcommit, hbefore, hafter, fun hcond => ?_⟩
  have hkept := (commit_keeps_values_iff hbuild hcommit).1.2 hcond ⟨"out", "ty"⟩ (by decide) 6.0
  have hsame : (6.0 : Float) = 0.0 := Except.ok.inj ((hkept.1 hbefore).symm.trans hafter)
  exact absurd hsame (by decide)

end RigScript
