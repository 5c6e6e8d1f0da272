import RigScript.Proofs.Compile.Compilable
import RigScript.Proofs.Graph.Interchange

/-!
# Units that do not depend on their order

Two units that assign to different plugs can be compiled in either order. Which of them comes first
decides what their nodes are called, and nothing else that could be seen on the nodes that were
there before: a plug of these has the same value in the end, also when one unit reads what the
other one assigns to.

What sentences do to a plug can be told from the sentences and from what the plug stored at the
start. It stores the same in both orders, and it is fed by a network for the same expression; and
networks for one expression are interchangeable.

## Main definitions

* `RigScript.Feed`: what sentences have done to the connection of a plug
* `RigScript.Context.settle`: what sentences do to a plug
* `RigScript.Graph.Settled`: what was done to a plug
* `RigScript.compileInTurn`: two units, one after the other

## Main results

* `RigScript.Build.settled_sentences`: what sentences do to a plug is what `Context.settle` says
* `RigScript.InBothOrders.interchangeable`: the graphs of both orders are interchangeable
* `RigScript.compileInTurn_comm`: **independent units commute**
-/

namespace RigScript

/-! ### What an expression reads -/

mutual

/-- The meaning of an expression depends on the plugs that its paths stand for. -/
theorem Expr.interpret_congr {c : Context} {g g' : Graph} (e : Expr)
    (h : ∀ path ∈ e.paths, ∀ p, c.resolve path = .ok p → g.number? p = g'.number? p) :
    e.interpret c g = e.interpret c g' := by
  match e with
  | .number x => rfl
  | .path text =>
      rw [Expr.interpret, Expr.interpret]
      cases hp : c.resolve text with
      | error fault => rfl
      | ok p => exact h text (by simp [Expr.paths]) p hp
  | .brackets e => exact Expr.interpret_congr e h
  | .unary .plus e => exact Expr.interpret_congr e h
  | .unary .minus e => rw [Expr.interpret, Expr.interpret, Expr.interpret_congr e h]
  | .binary op left right =>
      rw [Expr.interpret, Expr.interpret,
        Expr.interpret_congr left fun path hpath => h path (List.mem_append_left _ hpath),
        Expr.interpret_congr right fun path hpath => h path (List.mem_append_right _ hpath)]
  | .call name args => rw [Expr.interpret, Expr.interpret, Expr.interpretAll_congr args h]

/-- The same for several expressions. -/
theorem Expr.interpretAll_congr {c : Context} {g g' : Graph} (es : List Expr)
    (h : ∀ path ∈ Expr.pathsAll es, ∀ p, c.resolve path = .ok p →
      g.number? p = g'.number? p) :
    Expr.interpretAll c g es = Expr.interpretAll c g' es := by
  match es with
  | [] => rfl
  | e :: es =>
      rw [Expr.interpretAll, Expr.interpretAll,
        Expr.interpret_congr e fun path hpath => h path (List.mem_append_left _ hpath),
        Expr.interpretAll_congr es fun path hpath => h path (List.mem_append_right _ hpath)]

end

/-! ### What sentences do to a plug -/

/-- What has been done to the connection of a plug. -/
inductive Feed where
  /-- Nothing. -/
  | kept
  /-- It was removed. -/
  | cut
  /-- The plug was connected to the network of an expression. -/
  | wired (e : Expr)

/-- What a plug stores after an operand was assigned to it. -/
def Operand.stored : Operand → Option Value → Option Value
  | .constant x, old => some ((Value.double x).storedOver old)
  | .plug _, old => old

/-- The plug that an operand is, if it is one. -/
def Operand.plug? : Operand → Option Plug
  | .constant _ => none
  | .plug p => some p

/-- What a sentence does to its target: a number is written in place of a connection, and anything
else is connected. -/
def Sentence.settle (s : Sentence) (state : Option Value × Feed) : Option Value × Feed :=
  match s.value.literal? with
  | some x => (some ((Value.double x).storedOver state.1), .cut)
  | none => (state.1, .wired s.value)

/-- **What sentences do to a plug**, given what it stores and what was done to it before. -/
def Context.settle (c : Context) (p : Plug) : List Sentence → Option Value × Feed →
    Option Value × Feed
  | [], state => state
  | s :: ss, state =>
    c.settle p ss (if (c.resolve s.target).toOption = some p then s.settle state else state)

/-- A plug is connected to the network of an expression only by a sentence with that expression. -/
theorem Context.exists_of_settle_eq_wired {c : Context} {p : Plug} {ss : List Sentence}
    {state : Option Value × Feed} {e : Expr} (h : (c.settle p ss state).2 = .wired e) :
    state.2 = .wired e ∨ ∃ s ∈ ss, s.value = e := by
  induction ss generalizing state with
  | nil => exact .inl h
  | cons s ss ih =>
      obtain hstate | ⟨s', hs', rfl⟩ := ih h
      · split at hstate
        · unfold Sentence.settle at hstate
          split at hstate
          · cases hstate
          · cases hstate
            exact .inr ⟨s, by simp, rfl⟩
        · exact .inl hstate
      · exact .inr ⟨s', List.mem_cons_of_mem s hs', rfl⟩

namespace Graph

variable {g g' base : Graph} {p q : Plug}

/-- What was done to the connection of a plug since `base`. The network of an expression has the
meaning of the expression in every graph that keeps what was built. -/
def Fed (c : Context) (base g : Graph) (p : Plug) : Feed → Prop
  | .kept => g.source? p = base.source? p
  | .cut => g.source? p = none
  | .wired e => ∃ source, g.source? p = some source ∧
      ∀ later, KeepsBuilt base g later → later.number? source = e.interpret c later

/-- What a plug stores and what was done to its connection since `base`. -/
structure Settled (c : Context) (base g : Graph) (p : Plug) (state : Option Value × Feed) :
    Prop where
  value_eq : g.value? p = state.1
  fed : Fed c base g p state.2

/-- Nothing has been done at the start. -/
theorem Settled.refl (c : Context) (g : Graph) (p : Plug) :
    Settled c g g p (g.value? p, .kept) :=
  ⟨rfl, rfl⟩

/-- A plug that is left alone stays settled, as long as what was built is kept. -/
theorem Settled.keep {c : Context} {state : Option Value × Feed} (h : Settled c base g p state)
    (hvalue : g'.value? p = g.value? p) (hsource : g'.source? p = g.source? p)
    (hkept : ∀ later, KeepsBuilt base g' later → KeepsBuilt base g later) :
    Settled c base g' p state := by
  obtain ⟨v, feed⟩ := state
  refine ⟨hvalue.trans h.value_eq, ?_⟩
  have hfed := h.fed
  cases feed with
  | kept => exact hsource.trans hfed
  | cut => exact hsource.trans hfed
  | wired e =>
      obtain ⟨source, hs, hmeaning⟩ := hfed
      exact ⟨source, hsource.trans hs, fun later hlater => hmeaning later (hkept later hlater)⟩

/-- What is stored after a node was replaced. -/
theorem value?_putNode {name : String} {m : Node} {journal : List Change} :
    value? { g with nodes := g.nodes.insert name m, journal } q =
      if q.node = name then m.attributes[q.attr]? else g.value? q := by
  simp only [value?, Std.ExtTreeMap.getElem?_insert, Std.LawfulEqOrd.compare_eq_iff_eq,
    eq_comm (a := name)]
  split <;> rfl

/-- One plug is **overwritten**: it has the given value and source, and the others are left
alone. -/
structure Overwritten (g g' : Graph) (p : Plug) (value : Option Value) (source : Option Plug) :
    Prop where
  value_self : g'.value? p = value
  source_self : g'.source? p = source
  value_of_ne : ∀ q, q ≠ p → g'.value? q = g.value? q
  source_of_ne : ∀ q, q ≠ p → g'.source? q = g.source? q

/-- The last of two changes to a plug counts. -/
theorem Overwritten.trans {g'' : Graph} {value value' : Option Value} {source source' : Option Plug}
    (h : g.Overwritten g' p value source) (h' : g'.Overwritten g'' p value' source') :
    g.Overwritten g'' p value' source' where
  value_self := h'.value_self
  source_self := h'.source_self
  value_of_ne q hne := (h'.value_of_ne q hne).trans (h.value_of_ne q hne)
  source_of_ne q hne := (h'.source_of_ne q hne).trans (h.source_of_ne q hne)

/-- A number is written to a plug without a connection. -/
theorem overwritten_setAttribute {v : Value} (h : g.perform (.setAttribute p v) = .ok ((), g')) :
    g.Overwritten g' p (some (v.storedOver (g.value? p))) none := by
  obtain ⟨n, hn, -, hs, rfl⟩ := perform_setAttribute.1 h
  obtain ⟨hnode, -⟩ := checkAttr_eq_ok_iff.1 hn
  refine ⟨?_, hs, fun q hne => ?_, fun _ _ => rfl⟩
  · rw [value?_putNode, if_pos rfl, Std.ExtTreeMap.getElem?_insert_self, value?, hnode,
      Option.bind_some]
  · rw [value?_putNode]
    split
    · next hsame =>
      have hattr : p.attr ≠ q.attr := by
        intro hattr
        apply hne
        cases p
        cases q
        simp_all
      simp [Std.ExtTreeMap.getElem?_insert, hattr, value?, hsame, hnode]
    · rfl

/-- A plug is connected. -/
theorem overwritten_connect {source : Plug} {force : Bool}
    (h : g.perform (.connect source p force) = .ok ((), g')) :
    g.Overwritten g' p (g.value? p) (some source) := by
  obtain ⟨-, -, -, rfl⟩ := perform_connect.1 h
  refine ⟨rfl, Std.ExtTreeMap.getElem?_insert_self, fun _ _ => rfl, fun q hne => ?_⟩
  simp [source?, Std.ExtTreeMap.getElem?_insert, hne.symm]

/-- A connection is removed. -/
theorem overwritten_disconnect (h : g.perform (.disconnect p) = .ok ((), g')) :
    g.Overwritten g' p (g.value? p) none := by
  obtain ⟨-, rfl⟩ := perform_disconnect.1 h
  refine ⟨rfl, Std.ExtTreeMap.getElem?_erase_self, fun _ _ => rfl, fun q hne => ?_⟩
  simp [source?, Std.ExtTreeMap.getElem?_erase, hne.symm]

/-- Lifting a lock changes no value and no connection. -/
theorem value?_setLocked {locked : Bool} (h : g.perform (.setLocked p locked) = .ok ((), g'))
    (q : Plug) :
    g'.value? q = g.value? q ∧ g'.source? q = g.source? q := by
  obtain ⟨n, hn, rfl⟩ := perform_setLocked.1 h
  obtain ⟨hnode, -⟩ := checkAttr_eq_ok_iff.1 hn
  refine ⟨?_, rfl⟩
  rw [value?_putNode]
  split
  · next hsame => rw [value?, hsame, hnode, Option.bind_some]
  · rfl

/-- A plug of an untouched node stores the same and is connected to the same. -/
theorem AgreeOn.value?_eq {P : String → Prop} (h : AgreeOn P g g') (hp : P p.node) :
    g'.value? p = g.value? p ∧ g'.source? p = g.source? p := by
  obtain ⟨hnode, hsource⟩ := h p.node hp
  exact ⟨by rw [value?, value?, hnode], hsource p.attr⟩

end Graph

namespace Build

open RigScript.Graph

variable {c : Context} {g g' base : Graph} {p : Plug} {names names' : List String} {s : Sentence}
  {state : Option Value × Feed}

/-- A number that is assigned takes the place of a connection, and a plug is connected. -/
theorem overwritten_assign {dest : Plug} {a : Operand}
    (h : (assign dest a).Yields Graph.host names g () names' g') :
    g.Overwritten g' dest (a.stored (g.value? dest)) a.plug? := by
  cases a with
  | constant x =>
      obtain ⟨⟨⟩, _, g₁, hdis, hset⟩ := yields_bind.1 h
      have hcut := overwritten_disconnect (yields_ask_graph.1 hdis).1
      have hwrite := overwritten_setAttribute (yields_ask_graph.1 hset).1
      rw [hcut.value_self] at hwrite
      exact hcut.trans hwrite
  | plug source => exact overwritten_connect (yields_ask_graph.1 h).1

/-- **What a sentence does to a plug**, when its target is on a node that was there at the start. -/
theorem settled_sentence (hg : g.WellFormed) (hbase : ∀ name ∈ base.nodes, name ∈ g.nodes)
    (htarget : ∀ t, c.resolve s.target = .ok t → t.node ∈ base.nodes) (hp : p.node ∈ base.nodes)
    (hstate : Settled c base g p state)
    (h : (sentence c s).Yields Graph.host names g () names' g') :
    Settled c base g' p
      (if (c.resolve s.target).toOption = some p then s.settle state else state) := by
  obtain ⟨dest, a, _, _, built, free, hresolve, -, hlower, hfree, hassign⟩ := yields_sentence h
  obtain ⟨hlit, hreal⟩ := realizes_lower s.value hg hlower
  have hdest : dest.node ∈ base.nodes := htarget dest hresolve
  obtain ⟨hlift, hsame⟩ : AgreeOn (· ≠ dest.node) built free ∧
      ∀ q, free.value? q = built.value? q ∧ free.source? q = built.source? q := by
    obtain rfl | hlift := hfree
    · exact ⟨.refl _ _, fun _ => ⟨rfl, rfl⟩⟩
    · exact ⟨(recipe_setLocked hlift).1, value?_setLocked hlift⟩
  have hagree : AgreeOn (· ≠ dest.node) built g' := hlift.trans (assigned_assign hassign).agree
  -- Nothing but the node of the target is touched, so what was built before and now is kept.
  have hmem : ∀ name ∈ built.nodes, name ∉ base.nodes → name ≠ dest.node ∧ name ∈ g'.nodes := by
    intro name hname hnew
    have hne : name ≠ dest.node := by
      rintro rfl
      exact hnew hdest
    exact ⟨hne, (hagree.mem_nodes_iff hne).2 hname⟩
  have hearlier : ∀ later, KeepsBuilt base g' later → KeepsBuilt base g later := by
    intro later hlater
    have hold : AgreeOn (fun name => name ∈ g.nodes ∧ name ∉ base.nodes) g built :=
      hreal.grown.mono fun _ => And.left
    refine (hold.trans (hagree.mono ?_)).trans (hlater.mono ?_)
    · exact fun name ⟨hname, hnew⟩ => (hmem name (hreal.grown.mem_nodes hname) hnew).1
    · exact fun name ⟨hname, hnew⟩ => ⟨(hmem name (hreal.grown.mem_nodes hname) hnew).2, hnew⟩
  have hnow : ∀ later, KeepsBuilt base g' later → KeepsBuilt g built later := by
    intro later hlater
    refine (hagree.mono ?_).trans (hlater.mono ?_)
    · exact fun name ⟨hname, hnew⟩ => (hmem name hname fun hold => hnew (hbase name hold)).1
    · intro name ⟨hname, hnew⟩
      have hnew' : name ∉ base.nodes := fun hold => hnew (hbase name hold)
      exact ⟨(hmem name hname hnew').2, hnew'⟩
  obtain ⟨hvalue, hsource⟩ := hreal.grown.value?_eq (hbase p.node hp)
  have hover := overwritten_assign hassign
  by_cases hpd : dest = p
  · subst hpd
    rw [if_pos (by rw [hresolve]; rfl)]
    have hstored : free.value? dest = state.1 :=
      ((hsame dest).1.trans hvalue).trans hstate.value_eq
    rw [hstored] at hover
    cases a with
    | constant x =>
        rw [Sentence.settle, ← hlit]
        exact ⟨hover.value_self, hover.source_self⟩
    | plug source =>
        rw [Sentence.settle, ← hlit]
        exact ⟨hover.value_self, source, hover.source_self, fun later hlater =>
          hreal.read_eq later (hnow later hlater)⟩
  · have hother : (c.resolve s.target).toOption ≠ some p := by
      rw [hresolve]
      exact fun heq => hpd (Option.some.inj heq)
    rw [if_neg hother]
    refine hstate.keep ?_ ?_ hearlier
    · rw [hover.value_of_ne p (Ne.symm hpd), (hsame p).1, hvalue]
    · rw [hover.source_of_ne p (Ne.symm hpd), (hsame p).2, hsource]

/-- **What sentences do to a plug** is settled by the sentences and by what the plug stored. -/
theorem settled_sentences (ss : List Sentence) {g : Graph} {names : List String}
    {state : Option Value × Feed} (hg : g.WellFormed)
    (hbase : ∀ name ∈ base.nodes, name ∈ g.nodes)
    (htargets : ∀ t, c.Assigns ss t → t.node ∈ base.nodes) (hp : p.node ∈ base.nodes)
    (hstate : Settled c base g p state)
    (h : (sentences c ss).Yields Graph.host names g () names' g') :
    Settled c base g' p (c.settle p ss state) := by
  induction ss generalizing g names state with
  | nil =>
      obtain ⟨-, -, rfl⟩ := yields_pure.1 h
      exact hstate
  | cons s ss ih =>
      simp only [Context.assigns_cons] at htargets
      obtain ⟨⟨⟩, _, g₁, hfirst, hrest⟩ := yields_bind.1 h
      have hgrows := (admissible_of_yields_sentence hg hfirst).1
      exact ih (hfirst.wellFormed hg) (fun name hname => (hgrows name (hbase name hname)).1)
        (fun t ht => htargets t (.inr ht))
        (settled_sentence hg hbase (fun t ht => htargets t (.inl ht)) hp hstate hfirst) hrest

end Build

/-! ### Units -/

section Units

variable {c : Context} {script : String} {g g' : Graph} {created : List String} {p : Plug}

/-- The targets of a script that is admitted are on nodes that are there. -/
theorem Graph.Admits.target_mem (h : g.Admits c script)
    (hp : c.Assigns (scriptSentences script) p) : p.node ∈ g.nodes := by
  obtain ⟨ss, hparse, hss⟩ := h
  rw [scriptSentences_eq hparse] at hp
  obtain ⟨s, hs, hresolve⟩ := hp
  obtain ⟨⟨t, ht, hassignable⟩, -⟩ := hss s hs
  obtain rfl : p = t := Except.ok.inj (hresolve.symm.trans ht)
  exact hassignable.1.node_mem

/-- What a script that is admitted reads is on nodes that are there. -/
theorem Graph.Admits.path_mem (h : g.Admits c script) {s : Sentence}
    (hs : s ∈ scriptSentences script) {path : String} (hpath : path ∈ s.value.paths)
    (hp : c.resolve path = .ok p) : p.node ∈ g.nodes := by
  obtain ⟨ss, hparse, hss⟩ := h
  rw [scriptSentences_eq hparse] at hs
  obtain ⟨q, hq, hpresent⟩ := (hss s hs).2.2 path hpath
  obtain rfl : p = q := Except.ok.inj (hp.symm.trans hq)
  exact hpresent.node_mem

/-- What is admitted is admitted after another unit was compiled. -/
theorem Graph.Admits.later {targets : Plug → Prop} (h : g.Admits c script)
    (hfoot : g.Footprint targets created g') (hgrows : g.Grows g') : g'.Admits c script := by
  obtain ⟨ss, hparse, hss⟩ := h
  exact ⟨ss, hparse, fun s hs => (hss s hs).later hfoot hgrows⟩

/-- What is admitted after another unit was compiled was admitted before, if it mentions none of the
nodes created for the other unit. -/
theorem Graph.Admits.earlier {targets : Plug → Prop} (h : g'.Admits c script)
    (hfoot : g.Footprint targets created g') (hgrows : g.Grows g')
    (hpaths : ∀ name ∈ created, ¬ c.Mentions script name) : g.Admits c script := by
  obtain ⟨ss, hparse, hss⟩ := h
  have havoid : ∀ s ∈ ss, ∀ path ∈ s.target :: s.value.paths, ∀ p, c.resolve path = .ok p →
      p.node ∉ created := by
    intro s hs path hpath p hp hmem
    rw [← scriptSentences_eq hparse] at hs
    exact hpaths p.node hmem ⟨path, List.mem_flatMap.2 ⟨s, hs, hpath⟩, p, hp, rfl⟩
  refine ⟨ss, hparse, fun s hs => ?_⟩
  obtain ⟨⟨p, hp, hassignable⟩, hsupported, hfinds⟩ := hss s hs
  refine ⟨⟨p, hp, hassignable.earlier hfoot hgrows ?_⟩, hsupported,
    hfinds.earlier hfoot hgrows ?_⟩
  · exact havoid s hs s.target (by simp) p hp
  · exact fun path hpath => havoid s hs path (List.mem_cons_of_mem _ hpath)

/-- What a unit does to a plug of a node that was there. -/
theorem Compiled.settled (h : Compiled c script g created g') (hg : g.WellFormed)
    (htargets : ∀ t, c.Assigns (scriptSentences script) t → t.node ∈ g.nodes)
    (hp : p.node ∈ g.nodes) :
    Graph.Settled c g g' p (c.settle p (scriptSentences script) (g.value? p, .kept)) :=
  Build.settled_sentences (scriptSentences script) hg (fun _ hname => hname) htargets hp
    (.refl c g p) h.yields

/-- A unit leaves nodes alone that none of its targets is on. -/
theorem Compiled.agreeOn (h : Compiled c script g created g') (hg : g.WellFormed)
    {base : String → Prop} (hbase : ∀ name, base name → name ∈ g.nodes)
    (htargets : ∀ t, c.Assigns (scriptSentences script) t → base t.node) :
    Graph.AgreeOn (fun name => name ∈ g.nodes ∧ ¬ base name) g g' :=
  (Build.sentences_frame base hg hbase (fun s hs t ht => htargets t ⟨s, hs, ht⟩) h.yields).1

theorem Compiled.wellFormed (h : Compiled c script g created g') (hg : g.WellFormed) :
    g'.WellFormed :=
  h.yields.wellFormed hg

end Units

/-- Two units that a graph admits and that assign to different plugs are compiled in both orders:
the first and then the second one by way of `g₁`, the second and then the first one by way of
`g₂`. -/
structure InBothOrders (c₁ c₂ : Context) (script₁ script₂ : String) (g g₁ g₁₂ g₂ g₂₁ : Graph) :
    Prop where
  wellFormed : g.WellFormed
  admits₁ : g.Admits c₁ script₁
  admits₂ : g.Admits c₂ script₂
  disjoint : ∀ p, c₁.Assigns (scriptSentences script₁) p →
    ¬ c₂.Assigns (scriptSentences script₂) p
  first₁ : ∃ created, Compiled c₁ script₁ g created g₁
  second₂ : ∃ created, Compiled c₂ script₂ g₁ created g₁₂
  first₂ : ∃ created, Compiled c₂ script₂ g created g₂
  second₁ : ∃ created, Compiled c₁ script₁ g₂ created g₂₁

namespace InBothOrders

open RigScript.Graph

variable {c₁ c₂ : Context} {script₁ script₂ : String} {g g₁ g₁₂ g₂ g₂₁ : Graph} {p : Plug}

theorem symm (h : InBothOrders c₁ c₂ script₁ script₂ g g₁ g₁₂ g₂ g₂₁) :
    InBothOrders c₂ c₁ script₂ script₁ g g₂ g₂₁ g₁ g₁₂ where
  wellFormed := h.wellFormed
  admits₁ := h.admits₂
  admits₂ := h.admits₁
  disjoint p hp₂ hp₁ := h.disjoint p hp₁ hp₂
  first₁ := h.first₂
  second₂ := h.second₁
  first₂ := h.first₁
  second₁ := h.second₂

/-- **A plug that the second unit does not assign to** stores the same in the end and is fed by what
means the same. What the first unit does to it is the same in both orders, as the second unit
leaves it alone. -/
theorem alike (h : InBothOrders c₁ c₂ script₁ script₂ g g₁ g₁₂ g₂ g₂₁) (hp : p.node ∈ g.nodes)
    (hnot : ¬ c₂.Assigns (scriptSentences script₂) p) :
    g₁₂.value? p = g₂₁.value? p ∧
      Option.Rel (SameMeaning (· ∈ g.nodes) g₁₂ g₂₁) (g₁₂.source? p) (g₂₁.source? p) := by
  obtain ⟨_, hfirst₁⟩ := h.first₁
  obtain ⟨_, hsecond₂⟩ := h.second₂
  obtain ⟨_, hfirst₂⟩ := h.first₂
  obtain ⟨_, hsecond₁⟩ := h.second₁
  have hsub₁ : ∀ name ∈ g.nodes, name ∈ g₁.nodes := fun name hname =>
    (hfirst₁.grows h.wellFormed name hname).1
  have hsub₂ : ∀ name ∈ g.nodes, name ∈ g₂.nodes := fun name hname =>
    (hfirst₂.grows h.wellFormed name hname).1
  obtain ⟨hvalue₁₂, -, hsource₁₂⟩ := hsecond₂.footprint.kept_plug (hsub₁ _ hp) hnot
  obtain ⟨hvalue₂, -, hsource₂⟩ := hfirst₂.footprint.kept_plug hp hnot
  have hsettled₁ := hfirst₁.settled h.wellFormed (fun _ => h.admits₁.target_mem) hp
  have hsettled₂₁ := hsecond₁.settled (hfirst₂.wellFormed h.wellFormed)
    (fun t ht => hsub₂ _ (h.admits₁.target_mem ht)) (hsub₂ _ hp)
  rw [hvalue₂] at hsettled₂₁
  generalize hstate : c₁.settle p (scriptSentences script₁) (g.value? p, .kept) = state
    at hsettled₁ hsettled₂₁
  obtain ⟨v, feed⟩ := state
  refine ⟨hvalue₁₂.trans (hsettled₁.value_eq.trans hsettled₂₁.value_eq.symm), ?_⟩
  rw [hsource₁₂]
  have hfed₁ := hsettled₁.fed
  have hfed₂₁ := hsettled₂₁.fed
  cases feed with
  | kept =>
      rw [show g₁.source? p = g.source? p from hfed₁,
        show g₂₁.source? p = g.source? p from hfed₂₁.trans hsource₂]
      cases hs : g.source? p with
      | none => exact .none
      | some source => exact .some (.of_old (h.wellFormed.source_mem p source hs))
  | cut =>
      rw [show g₁.source? p = none from hfed₁, show g₂₁.source? p = none from hfed₂₁]
      exact .none
  | wired e =>
      obtain ⟨source₁, hs₁, hmeaning₁⟩ := hfed₁
      obtain ⟨source₂, hs₂, hmeaning₂⟩ := hfed₂₁
      rw [hs₁, hs₂]
      refine .some ⟨fun later => e.interpret c₁ later, ?_, ?_, ?_⟩
      · intro later later' hsame
        obtain hkept | ⟨s, hs, rfl⟩ := Context.exists_of_settle_eq_wired (congrArg Prod.snd hstate)
        · cases hkept
        · exact Expr.interpret_congr s.value fun path hpath q hq =>
            hsame q (h.admits₁.path_mem hs hpath hq)
      · intro later hlater
        refine hmeaning₁ later (AgreeOn.trans (hsecond₂.agreeOn (hfirst₁.wellFormed h.wellFormed)
          hsub₁ fun _ => h.admits₂.target_mem) (hlater.mono fun _ => And.right))
      · intro later hlater
        exact hmeaning₂ later (hlater.mono fun name ⟨_, hnew⟩ hold => hnew (hsub₂ name hold))

/-- The nodes that were there are kept with their kinds and curves. -/
theorem kept_node (h : InBothOrders c₁ c₂ script₁ script₂ g g₁ g₁₂ g₂ g₂₁) {name : String}
    (hname : name ∈ g.nodes) :
    name ∈ g₁₂.nodes ∧ g₁₂.kind? name = g.kind? name ∧ g₁₂.curve? name = g.curve? name := by
  obtain ⟨_, hfirst₁⟩ := h.first₁
  obtain ⟨_, hsecond₂⟩ := h.second₂
  obtain ⟨hmem, hkind, hcurve⟩ := hfirst₁.footprint.kept_node hname
  obtain ⟨hmem', hkind', hcurve'⟩ := hsecond₂.footprint.kept_node hmem
  exact ⟨hmem', hkind'.trans hkind, hcurve'.trans hcurve⟩

/-- **The graphs of both orders are interchangeable.** -/
theorem interchangeable (h : InBothOrders c₁ c₂ script₁ script₂ g g₁ g₁₂ g₂ g₂₁) :
    Interchangeable (· ∈ g.nodes) g₁₂ g₂₁ := by
  have halike : ∀ p : Plug, p.node ∈ g.nodes → g₁₂.value? p = g₂₁.value? p ∧
      Option.Rel (SameMeaning (· ∈ g.nodes) g₁₂ g₂₁) (g₁₂.source? p) (g₂₁.source? p) := by
    intro p hp
    by_cases hnot : c₂.Assigns (scriptSentences script₂) p
    · obtain ⟨hvalue, hrel⟩ := h.symm.alike hp fun hp₁ => h.disjoint p hp₁ hnot
      exact ⟨hvalue.symm, SameMeaning.rel_symm hrel⟩
    · exact h.alike hp hnot
  refine ⟨fun name hname => ?_, fun p hp => (halike p hp).2⟩
  obtain ⟨hmem₁, hkind₁, hcurve₁⟩ := h.kept_node hname
  obtain ⟨hmem₂, hkind₂, hcurve₂⟩ := h.symm.kept_node hname
  obtain ⟨n₁, hn₁⟩ := exists_node_of_mem hmem₁
  obtain ⟨n₂, hn₂⟩ := exists_node_of_mem hmem₂
  have hkind : n₂.kind = n₁.kind := by
    simpa [kind?, hn₁, hn₂] using hkind₂.trans hkind₁.symm
  have hcurve : n₂.curve = n₁.curve := by
    simpa [curve?, hn₁, hn₂] using hcurve₂.trans hcurve₁.symm
  have hattributes : n₂.attributes = n₁.attributes := by
    refine Std.ExtTreeMap.ext_getElem? fun attr => ?_
    simpa [value?, hn₁, hn₂] using (halike ⟨name, attr⟩ hname).1.symm
  refine ⟨n₁, n₂, hn₁, hn₂, ?_⟩
  rw [← hkind, ← hcurve, ← hattributes]

end InBothOrders

/-- Two units are compiled one after the other. -/
def compileInTurn (c₁ : Context) (script₁ : String) (c₂ : Context) (script₂ : String) :
    Attempt Nat := do
  let _ ← compileScript c₁ script₁
  compileScript c₂ script₂

section InTurn

variable {c₁ c₂ : Context} {script₁ script₂ : String} {g : Graph}

/-- Two units that were compiled one after the other, and the nodes created for them. -/
theorem compileInTurn_eq_ok {count : Nat} {g₁₂ : Graph}
    (h : (compileInTurn c₁ script₁ c₂ script₂).run.run Graph.host g = (.ok count, g₁₂)) :
    ∃ created₁ g₁ created₂, Compiled c₁ script₁ g created₁ g₁ ∧
      Compiled c₂ script₂ g₁ created₂ g₁₂ ∧
      createdIn ((compileInTurn c₁ script₁ c₂ script₂).run.trace Graph.host g) =
        created₁ ++ created₂ := by
  obtain ⟨count₁, g₁, hfirst, hsecond⟩ := Attempt.yields_bind.1 h
  obtain ⟨created₁, hcompiled₁, -⟩ := compileScript_eq_ok_iff.1 hfirst
  obtain ⟨created₂, hcompiled₂, -⟩ := compileScript_eq_ok_iff.1 hsecond
  refine ⟨created₁, g₁, created₂, hcompiled₁, hcompiled₂, ?_⟩
  rw [compileInTurn, (Attempt.held_bind_ok hfirst).2, createdIn_append, hcompiled₁.createdIn_eq,
    hcompiled₂.createdIn_eq]

/-- Both units are admitted at the start when they compile one after the other, if they mention none
of the nodes created. -/
theorem admits_of_compileInTurn (hg : g.WellFormed) {count : Nat} {g₁₂ : Graph}
    (hpaths : ∀ name ∈ createdIn
      ((compileInTurn c₁ script₁ c₂ script₂).run.trace Graph.host g),
        ¬ c₁.Mentions script₁ name ∧ ¬ c₂.Mentions script₂ name)
    (h : (compileInTurn c₁ script₁ c₂ script₂).run.run Graph.host g = (.ok count, g₁₂)) :
    g.Admits c₁ script₁ ∧ g.Admits c₂ script₂ := by
  obtain ⟨created₁, g₁, created₂, hfirst, hsecond, hcreated⟩ := compileInTurn_eq_ok h
  rw [hcreated] at hpaths
  have hadmits₂ : g₁.Admits c₂ script₂ := hsecond.admits (hfirst.wellFormed hg) fun name hname =>
    (hpaths name (List.mem_append_right _ hname)).2
  exact ⟨hfirst.admits hg fun name hname => (hpaths name (List.mem_append_left _ hname)).1,
    hadmits₂.earlier hfirst.footprint (hfirst.grows hg) fun name hname =>
      (hpaths name (List.mem_append_left _ hname)).2⟩

/-- Two units that are admitted compile one after the other. -/
theorem exists_compileInTurn (hg : g.WellFormed) (hadmits₁ : g.Admits c₁ script₁)
    (hadmits₂ : g.Admits c₂ script₂) :
    ∃ count g₁₂, (compileInTurn c₁ script₁ c₂ script₂).run.run Graph.host g =
      (.ok count, g₁₂) := by
  obtain ⟨created₁, g₁, hfirst⟩ := hadmits₁.exists_compiled hg
  obtain ⟨created₂, g₁₂, hsecond⟩ :=
    (hadmits₂.later hfirst.footprint (hfirst.grows hg)).exists_compiled (hfirst.wellFormed hg)
  exact ⟨_, g₁₂, Attempt.yields_bind.2 ⟨_, g₁, compileScript_eq_ok_iff.2 ⟨created₁, hfirst, rfl⟩,
    compileScript_eq_ok_iff.2 ⟨created₂, hsecond, rfl⟩⟩⟩

/-- **Independent units commute.** Let two units assign to different plugs in a reachable graph, and
let no path of either lead to a node that is created when they are compiled one after the other, in
whichever order. They compile in one order exactly when they compile in the other one; and then
every plug of a node that was there before has the same value in the end, also when one unit reads
what the other one assigns to. -/
theorem compileInTurn_comm (hg : g.Reachable)
    (hdisjoint : ∀ p, c₁.Assigns (scriptSentences script₁) p →
      ¬ c₂.Assigns (scriptSentences script₂) p)
    (hpaths₁₂ : ∀ name ∈ createdIn
      ((compileInTurn c₁ script₁ c₂ script₂).run.trace Graph.host g),
        ¬ c₁.Mentions script₁ name ∧ ¬ c₂.Mentions script₂ name)
    (hpaths₂₁ : ∀ name ∈ createdIn
      ((compileInTurn c₂ script₂ c₁ script₁).run.trace Graph.host g),
        ¬ c₁.Mentions script₁ name ∧ ¬ c₂.Mentions script₂ name) :
    ((∃ count g₁₂, (compileInTurn c₁ script₁ c₂ script₂).run.run Graph.host g =
        (.ok count, g₁₂)) ↔
      ∃ count g₂₁, (compileInTurn c₂ script₂ c₁ script₁).run.run Graph.host g =
        (.ok count, g₂₁)) ∧
    ∀ count₁₂ g₁₂ count₂₁ g₂₁,
      (compileInTurn c₁ script₁ c₂ script₂).run.run Graph.host g = (.ok count₁₂, g₁₂) →
      (compileInTurn c₂ script₂ c₁ script₁).run.run Graph.host g = (.ok count₂₁, g₂₁) →
      ∀ p : Plug, p.node ∈ g.nodes → ∀ v, g₁₂.evaluate p = .ok v ↔ g₂₁.evaluate p = .ok v := by
  have hwf := hg.wellFormed
  refine ⟨⟨?_, ?_⟩, ?_⟩
  · rintro ⟨count, g₁₂, hrun⟩
    obtain ⟨hadmits₁, hadmits₂⟩ := admits_of_compileInTurn hwf hpaths₁₂ hrun
    exact exists_compileInTurn hwf hadmits₂ hadmits₁
  · rintro ⟨count, g₂₁, hrun⟩
    obtain ⟨hadmits₂, hadmits₁⟩ :=
      admits_of_compileInTurn hwf (fun name hname => (hpaths₂₁ name hname).symm) hrun
    exact exists_compileInTurn hwf hadmits₁ hadmits₂
  · intro count₁₂ g₁₂ count₂₁ g₂₁ hrun₁₂ hrun₂₁ p hp v
    obtain ⟨hadmits₁, hadmits₂⟩ := admits_of_compileInTurn hwf hpaths₁₂ hrun₁₂
    obtain ⟨_, g₁, _, hfirst₁, hsecond₂, -⟩ := compileInTurn_eq_ok hrun₁₂
    obtain ⟨_, g₂, _, hfirst₂, hsecond₁, -⟩ := compileInTurn_eq_ok hrun₂₁
    have hboth : InBothOrders c₁ c₂ script₁ script₂ g g₁ g₁₂ g₂ g₂₁ :=
      ⟨hwf, hadmits₁, hadmits₂, hdisjoint, ⟨_, hfirst₁⟩, ⟨_, hsecond₂⟩, ⟨_, hfirst₂⟩,
        ⟨_, hsecond₁⟩⟩
    rw [← Graph.number?_eq_some_iff, ← Graph.number?_eq_some_iff,
      hboth.interchangeable.number?_eq hp]

end InTurn

/-- Three nodes with a number each, of which the first is three. -/
def Graph.relay : Graph :=
  (((((Graph.empty.addNode "a" (.other "transform")).addAttribute ⟨"a", "x"⟩
    (.double 3.0)).addNode "b" (.other "transform")).addAttribute ⟨"b", "x"⟩
    (.double 0.0)).addNode "d" (.other "transform")).addAttribute ⟨"d", "y"⟩ (.double 0.0)

/-- The second unit reads what the first one assigns to. In one order the target of the first unit
is fed by the first product, and in the other order by the second one; the value passed on to the
end is the same. -/
theorem compileInTurn_comm_relay :
    ∃ count₁₂ g₁₂ count₂₁ g₂₁,
      (compileInTurn ⟨"e", {}⟩ "b.x = a.x * 2;" ⟨"f", {}⟩ "d.y = b.x * 5;").run.run Graph.host
        Graph.relay = (.ok count₁₂, g₁₂) ∧
      (compileInTurn ⟨"f", {}⟩ "d.y = b.x * 5;" ⟨"e", {}⟩ "b.x = a.x * 2;").run.run Graph.host
        Graph.relay = (.ok count₂₁, g₂₁) ∧
      g₁₂.source? ⟨"b", "x"⟩ = some ⟨"multiplyDivide1", "outputX"⟩ ∧
      g₂₁.source? ⟨"b", "x"⟩ = some ⟨"multiplyDivide2", "outputX"⟩ ∧
      g₁₂.evaluate ⟨"d", "y"⟩ = .ok 30.0 ∧ g₂₁.evaluate ⟨"d", "y"⟩ = .ok 30.0 := by
  have hreach : Graph.relay.Reachable :=
    .addAttribute _ _ (.addNode _ _ (.addAttribute _ _ (.addNode _ _ (.addAttribute _ _
      (.addNode _ _ .empty)))))
  have htargets : ∀ (c : Context) (ss : List Sentence) (p : Plug), c.Assigns ss p →
      some p ∈ ss.map fun s => (c.resolve s.target).toOption := by
    rintro c ss p ⟨s, hs, hp⟩
    exact List.mem_map.2 ⟨s, hs, toOption_eq_some_iff.2 hp⟩
  have hdisjoint : ∀ p, Context.Assigns ⟨"e", {}⟩ (scriptSentences "b.x = a.x * 2;") p →
      ¬ Context.Assigns ⟨"f", {}⟩ (scriptSentences "d.y = b.x * 5;") p := by
    intro p hp₁ hp₂
    have hmem₁ := htargets _ _ p hp₁
    have hmem₂ := htargets _ _ p hp₂
    rw [show (scriptSentences "b.x = a.x * 2;").map _ = [some ⟨"b", "x"⟩] by decide +kernel]
      at hmem₁
    rw [show (scriptSentences "d.y = b.x * 5;").map _ = [some ⟨"d", "y"⟩] by decide +kernel]
      at hmem₂
    obtain rfl : p = ⟨"b", "x"⟩ := by simpa using hmem₁
    simp at hmem₂
  have hcomm := compileInTurn_comm hreach hdisjoint (by decide +kernel) (by decide +kernel)
  have hrun₁₂ : (compileInTurn ⟨"e", {}⟩ "b.x = a.x * 2;" ⟨"f", {}⟩ "d.y = b.x * 5;").run.run
      Graph.host Graph.relay = (.ok 1, _) :=
    Prod.ext (toOption_eq_some_iff.1 (by decide +kernel)) rfl
  obtain ⟨count₂₁, g₂₁, hrun₂₁⟩ := hcomm.1.1 ⟨_, _, hrun₁₂⟩
  refine ⟨_, _, _, _, hrun₁₂, hrun₂₁, by decide +kernel, ?_, ?_⟩
  · rw [show g₂₁ = _ from (congrArg Prod.snd hrun₂₁).symm]
    decide +kernel
  · have hvalue : ((compileInTurn ⟨"e", {}⟩ "b.x = a.x * 2;" ⟨"f", {}⟩
        "d.y = b.x * 5;").run.run Graph.host Graph.relay).2.evaluate ⟨"d", "y"⟩ = .ok 30.0 :=
      toOption_eq_some_iff.1 (by decide +kernel)
    exact ⟨hvalue, (hcomm.2 _ _ _ _ hrun₁₂ hrun₂₁ ⟨"d", "y"⟩ (by decide +kernel) _).1 hvalue⟩

end RigScript
