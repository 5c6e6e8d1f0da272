import RigScript.Graph.Respond

/-!
# What requests do to a scene graph

Every request has one lemma here, which says exactly when it is granted and what the graph is
afterwards. Everything that is proved about graphs later rests on these lemmas and does not look
into the operations again.

A refusal could leave a trace, since an operation keeps what its steps have changed. None does: most
operations change nothing before they may be refused for the last time, and a deletion is refused
only if it has removed nothing.

## Main definitions

* `RigScript.Graph.Operation.Grants`, `RigScript.Graph.Operation.Refuses`: the two exits
* `RigScript.Request.asks`: a request that does not change the graph

## Main results

* `RigScript.Graph.checkAttr_eq_ok_iff` and its neighbours: when a plug is there
* `RigScript.Graph.perform_setAttribute` and its neighbours: when a request is granted, and the
  graph after it
* `RigScript.Graph.host_respond`: **a refused request leaves the graph as it was**
-/

namespace RigScript

/-- The outcome of one fallible step after another. -/
theorem bind_eq_ok_iff {ε α β : Type} {x : Except ε α} {f : α → Except ε β} {b : β} :
    x >>= f = .ok b ↔ ∃ a, x = .ok a ∧ f a = .ok b := by
  cases x with
  | error e => simp [bind, Except.bind]
  | ok a => simp [bind, Except.bind]

/-- The failure of one fallible step after another. -/
theorem bind_eq_error_iff {ε α β : Type} {x : Except ε α} {f : α → Except ε β} {e : ε} :
    x >>= f = .error e ↔ x = .error e ∨ ∃ a, x = .ok a ∧ f a = .error e := by
  cases x with
  | error e' => simp [bind, Except.bind]
  | ok a => simp [bind, Except.bind]

/-- The result of a fallible step, if it has one. -/
theorem toOption_eq_some_iff {ε α : Type} {x : Except ε α} {a : α} :
    x.toOption = some a ↔ x = .ok a := by
  cases x <;> simp [Except.toOption]

/-- What is stored under a name is one of the entries for it. -/
theorem mem_of_getElem?_ofList {α : Type} {entries : List (String × α)} {name : String} {v : α}
    (h : (Std.ExtTreeMap.ofList entries)[name]? = some v) : (name, v) ∈ entries := by
  rw [Std.ExtTreeMap.ofList_eq_insertMany_empty, Std.ExtTreeMap.getElem?_insertMany_list,
    Std.ExtTreeMap.getElem?_empty, Option.or_none, List.findSomeRev?_eq_findSome?_reverse] at h
  obtain ⟨⟨name', w⟩, hmem, hentry⟩ := List.exists_of_findSome?_eq_some h
  obtain ⟨heq, hw⟩ := Option.ite_none_right_eq_some.1 hentry
  obtain rfl : name' = name := Std.LawfulEqOrd.eq_of_compare heq
  exact Option.some.inj hw ▸ List.mem_reverse.1 hmem

/-- Removing what is not there leaves a table as it is. -/
theorem erase_of_getElem?_eq_none {κ α : Type} [Ord κ] [Std.TransOrd κ] [Std.LawfulEqOrd κ]
    {table : Std.ExtTreeMap κ α} {k : κ} (h : table[k]? = none) : table.erase k = table := by
  ext1 k'
  rw [Std.ExtTreeMap.getElem?_erase]
  split
  · next heq =>
    obtain rfl : k = k' := Std.LawfulEqOrd.eq_of_compare heq
    exact h.symm
  · rfl

/-- A request **asks** when it is answered by looking at the graph. -/
def Request.asks : Request → Bool
  | getAttribute _ | isLocked _ | listConstructs _ | listIncoming _ => true
  | _ => false

namespace Graph

variable {g g' : Graph}

/-! ### Presence -/

/-- A plug has an entry among the connections exactly when it has a source. -/
theorem contains_connections {p : Plug} :
    g.connections.contains p = (g.source? p).isSome :=
  Std.ExtTreeMap.isSome_getElem?_eq_contains.symm

theorem exists_node_of_mem {name : String} (h : name ∈ g.nodes) :
    ∃ n, g.nodes[name]? = some n :=
  Option.isSome_iff_exists.1 (Std.ExtTreeMap.mem_iff_isSome_getElem?.1 h)

/-- A node is found exactly when it is stored. -/
theorem node_eq_ok_iff {name : String} {n : Node} :
    g.node name = .ok n ↔ g.nodes[name]? = some n := by
  unfold node
  split <;> simp_all

/-- A plug is present when its node is and its attribute is stored or an array element. -/
theorem checkAttr_eq_ok_iff {p : Plug} {n : Node} :
    g.checkAttr p = .ok n ↔
      g.nodes[p.node]? = some n ∧ (p.attr ∈ n.attributes ∨ isElement p.attr = true) := by
  simp only [checkAttr, bind_eq_ok_iff, node_eq_ok_iff]
  constructor
  · rintro ⟨m, hm, h⟩
    split at h
    · cases h
      exact ⟨hm, by simp_all⟩
    · cases h
  · rintro ⟨hn, h⟩
    refine ⟨n, hn, ?_⟩
    rw [if_pos (by simpa using h)]
    rfl

/-- A plug may be written when it is present and not locked. -/
theorem checkUnlocked_eq_ok_iff {p : Plug} {n : Node} :
    g.checkUnlocked p = .ok n ↔ g.checkAttr p = .ok n ∧ p.attr ∉ n.locked := by
  simp only [checkUnlocked, bind_eq_ok_iff]
  constructor
  · rintro ⟨m, hm, h⟩
    split at h
    · cases h
    · cases h
      exact ⟨hm, by simp_all⟩
  · rintro ⟨hn, h⟩
    refine ⟨n, hn, ?_⟩
    rw [if_neg (by simpa using h)]
    rfl

/-- A node is found as a curve when it is one. -/
theorem checkCurve_eq_ok_iff {name : String} {n : Node} :
    g.checkCurve name = .ok n ↔
      g.nodes[name]? = some n ∧ n.kind = .primitive .rampCurve := by
  simp only [checkCurve, bind_eq_ok_iff, node_eq_ok_iff]
  constructor
  · rintro ⟨m, hm, h⟩
    split at h
    · next hk =>
      cases h
      exact ⟨hm, hk⟩
    · cases h
  · rintro ⟨hn, h⟩
    refine ⟨n, hn, ?_⟩
    rw [if_pos h]
    rfl

/-- The value of a plug that is present. -/
theorem getAttribute_eq_ok_iff {p : Plug} {v : Value} :
    g.getAttribute p = .ok v ↔
      ∃ n, g.checkAttr p = .ok n ∧ v = n.attributes[p.attr]?.getD (.double 0.0) := by
  simp only [getAttribute, bind_eq_ok_iff]
  simp [pure, Except.pure, eq_comm]

/-! ### The exits of an operation -/

namespace Operation

variable {α β : Type} {op : Operation α} {f : α → Operation β} {asked : Graph → Except GraphError α}
  {step : Graph → Graph} {a a' : α} {b : β} {e e' : GraphError}

/-- From the graph `g`, the operation **grants** `a` and leaves the graph `g'`. -/
def Grants (op : Operation α) (g : Graph) (a : α) (g' : Graph) : Prop :=
  (op.run.run g).run = (.ok a, g')

/-- From the graph `g`, the operation **refuses** with `e` and leaves the graph `g'`. -/
def Refuses (op : Operation α) (g : Graph) (e : GraphError) (g' : Graph) : Prop :=
  (op.run.run g).run = (.error e, g')

theorem run_bind : ((op >>= f).run.run g).run =
    match (op.run.run g).run with
    | (.ok a, g') => ((f a).run.run g').run
    | (.error e, g') => (.error e, g') := by
  simp only [ExceptT.run_bind, StateT.run_bind, Id.run_bind]
  rcases (op.run.run g).run with ⟨_ | _, _⟩ <;> rfl

theorem run_look : ((look asked).run.run g).run = (asked g, g) := rfl

theorem run_change : ((change step).run.run g).run = (.ok (), step g) := rfl

theorem grants_pure : (pure a : Operation α).Grants g a' g' ↔ a' = a ∧ g' = g := by
  simp [Grants, eq_comm]

theorem not_refuses_pure : ¬ (pure a : Operation α).Refuses g e g' := by
  simp [Refuses]

theorem not_grants_throw : ¬ (throw e : Operation α).Grants g a g' := by
  simp [Grants]

theorem refuses_throw : (throw e : Operation α).Refuses g e' g' ↔ e' = e ∧ g' = g := by
  simp [Refuses, eq_comm]

theorem grants_look : (look asked).Grants g a g' ↔ asked g = .ok a ∧ g' = g := by
  simp [Grants, run_look, eq_comm]

theorem refuses_look : (look asked).Refuses g e g' ↔ asked g = .error e ∧ g' = g := by
  simp [Refuses, run_look, eq_comm]

theorem grants_change {u : Unit} : (change step).Grants g u g' ↔ g' = step g := by
  simp [Grants, run_change, eq_comm]

theorem not_refuses_change : ¬ (change step).Refuses g e g' := by
  simp [Refuses, run_change]

/-! What an operation does first decides with which graph it goes on. -/

theorem grants_get_bind {f : Graph → Operation β} :
    (get >>= f).Grants g b g' ↔ (f g).Grants g b g' := by
  rfl

theorem refuses_get_bind {f : Graph → Operation β} :
    (get >>= f).Refuses g e g' ↔ (f g).Refuses g e g' := by
  rfl

theorem grants_look_bind :
    (look asked >>= f).Grants g b g' ↔ ∃ a, asked g = .ok a ∧ (f a).Grants g b g' := by
  simp only [Grants, run_bind, run_look]
  cases asked g <;> simp

theorem refuses_look_bind :
    (look asked >>= f).Refuses g e g' ↔
      asked g = .error e ∧ g' = g ∨ ∃ a, asked g = .ok a ∧ (f a).Refuses g e g' := by
  simp only [Refuses, run_bind, run_look]
  cases asked g <;> simp [eq_comm]

theorem grants_change_bind {f : Unit → Operation β} :
    (change step >>= f).Grants g b g' ↔ (f ()).Grants (step g) b g' := by
  rfl

theorem refuses_change_bind {f : Unit → Operation β} :
    (change step >>= f).Refuses g e g' ↔ (f ()).Refuses (step g) e g' := by
  rfl

/-- Looking does not change the graph that is left by a refusal. -/
theorem eq_of_refuses_look_bind (h : (look asked >>= f).Refuses g e g')
    (hf : ∀ a, (f a).Refuses g e g' → g' = g) : g' = g := by
  rcases refuses_look_bind.1 h with ⟨-, hg'⟩ | ⟨a, -, ha⟩
  · exact hg'
  · exact hf a ha

end Operation

open Operation

/-- A request is performed when its operation grants it. -/
theorem perform_eq_ok_iff {r : Request} {reply : r.Reply} :
    g.perform r = .ok (reply, g') ↔ (operation r).Grants g reply g' := by
  simp only [perform, host, Grants]
  rcases ((operation r).run.run g).run with ⟨_ | _, _⟩ <;> simp

/-! ### Granted requests -/

section Perform

variable {p source dest : Plug} {v : Value} {force locked : Bool} {name : String}
  {key : Keyframe Float} {pre post : Extrapolation}

theorem perform_createNode {kind : NodeKind} :
    g.perform (.createNode kind) = .ok (name, g') ↔
      name = g.freshName kind ∧ g' = { g with
        nodes := g.nodes.insert (g.freshName kind) (.ofKind kind)
        journal := g.journal ++ [.createNode (g.freshName kind) kind] } := by
  refine perform_eq_ok_iff.trans ?_
  simp only [operation, createNode, grants_get_bind, grants_change_bind, grants_pure, addNode,
    record]

/-- A value is written to a plug that is present, unlocked and unconnected. -/
theorem perform_setAttribute :
    g.perform (.setAttribute p v) = .ok ((), g') ↔
      ∃ n, g.checkAttr p = .ok n ∧ p.attr ∉ n.locked ∧ g.source? p = none ∧
        g' = { g with
          nodes := g.nodes.insert p.node
            { n with attributes := n.attributes.insert p.attr (v.storedOver n.attributes[p.attr]?) }
          journal := g.journal ++ [.setAttribute p v] } := by
  refine perform_eq_ok_iff.trans ?_
  simp only [operation, setAttribute, grants_look_bind, grants_get_bind,
    checkUnlocked_eq_ok_iff, and_assoc, contains_connections]
  refine exists_congr fun n => and_congr_right fun _ => and_congr_right fun _ => ?_
  cases hs : g.source? p with
  | some source => simp [not_grants_throw]
  | none => simp [grants_change_bind, grants_change, record]

/-- Two plugs are connected when both are present, the second is unlocked, and it has no
connection unless one is to be replaced. -/
theorem perform_connect :
    g.perform (.connect source dest force) = .ok ((), g') ↔
      (∃ m, g.checkAttr source = .ok m) ∧
      (∃ n, g.checkAttr dest = .ok n ∧ dest.attr ∉ n.locked) ∧
      (force = true ∨ g.source? dest = none) ∧
      g' = { g with
        connections := g.connections.insert dest source
        journal := g.journal ++ [.connect source dest force] } := by
  refine perform_eq_ok_iff.trans ?_
  simp only [operation, connect, grants_look_bind, grants_get_bind,
    checkUnlocked_eq_ok_iff, contains_connections, exists_and_right]
  refine and_congr_right fun _ => and_congr_right fun _ => ?_
  by_cases hfree : force = true ∨ g.source? dest = none
  · have hgo : (!force && (g.source? dest).isSome) = false := by
      rcases hfree with rfl | hs
      · rfl
      · simp [hs]
    simp [hgo, hfree, grants_change_bind, grants_change, record]
  · have hstop : (!force && (g.source? dest).isSome) = true := by
      rw [not_or] at hfree
      simp [hfree.1, Option.isSome_iff_ne_none.2 hfree.2]
    simp [hstop, hfree, not_grants_throw]

/-- The connection that ends in a plug is removed when the plug is present and unlocked. Only a
connection that was there is entered in the journal. -/
theorem perform_disconnect :
    g.perform (.disconnect dest) = .ok ((), g') ↔
      (∃ n, g.checkAttr dest = .ok n ∧ dest.attr ∉ n.locked) ∧
      g' = { g with
        connections := g.connections.erase dest
        journal := g.journal ++ if (g.source? dest).isSome then [.disconnect dest] else [] } := by
  refine perform_eq_ok_iff.trans ?_
  simp only [operation, disconnect, grants_look_bind, grants_get_bind,
    grants_change_bind, checkUnlocked_eq_ok_iff, exists_and_right]
  refine and_congr_right fun _ => ?_
  by_cases hs : (g.source? dest).isSome
  · have hremoved : g.connections[dest]?.isSome = true := hs
    simp [hs, hremoved, grants_change, record]
  · have hremoved : g.connections[dest]?.isSome = false := Bool.eq_false_iff.2 hs
    simp [hs, hremoved, grants_pure]

/-- A lock is set or lifted on a plug that is present. -/
theorem perform_setLocked :
    g.perform (.setLocked p locked) = .ok ((), g') ↔
      ∃ n, g.checkAttr p = .ok n ∧
        g' = { g with
          nodes := g.nodes.insert p.node
            { n with locked := if locked then n.locked.insert p.attr else n.locked.erase p.attr }
          journal := g.journal ++ [.setLocked p locked] } := by
  refine perform_eq_ok_iff.trans ?_
  simp only [operation, setLocked, grants_look_bind, grants_change_bind,
    grants_change, record]

/-- A key is added to a node that is a curve. -/
theorem perform_createKeyframe :
    g.perform (.createKeyframe name key) = .ok ((), g') ↔
      ∃ n, g.checkCurve name = .ok n ∧
        g' = { g with
          nodes := g.nodes.insert name { n with curve := n.curve.addKey key }
          journal := g.journal ++ [.createKeyframe name key] } := by
  refine perform_eq_ok_iff.trans ?_
  simp only [operation, createKeyframe, grants_look_bind, grants_change_bind,
    grants_change, record]

/-- The extrapolation of a node that is a curve is set. -/
theorem perform_setExtrapolation :
    g.perform (.setExtrapolation name pre post) = .ok ((), g') ↔
      ∃ n, g.checkCurve name = .ok n ∧
        g' = { g with
          nodes := g.nodes.insert name { n with curve := { n.curve with pre, post } }
          journal := g.journal ++ [.setExtrapolation name pre post] } := by
  refine perform_eq_ok_iff.trans ?_
  simp only [operation, setExtrapolation, grants_look_bind, grants_change_bind,
    grants_change, record]

/-- A node that is there is deleted, with the connections from and to it and its place in the
selection. -/
theorem perform_deleteNode :
    g.perform (.deleteNode name) = .ok ((), g') ↔
      (∃ n, g.nodes[name]? = some n) ∧
      g' = { g with
        nodes := g.nodes.erase name
        connections := g.connections.filter fun dest source =>
          dest.node != name && source.node != name
        selection := g.selection.filter (· != name)
        journal := g.journal ++ [.deleteNode name] } := by
  refine perform_eq_ok_iff.trans ?_
  simp only [operation, deleteNode, grants_get_bind, grants_change_bind]
  cases hn : g.nodes[name]? with
  | none => simp [not_grants_throw]
  | some n => simp [grants_change_bind, grants_change, record]

theorem perform_clearSelection :
    g.perform .clearSelection = .ok ((), g') ↔
      g' = { g with selection := [], journal := g.journal ++ [.clearSelection] } := by
  refine perform_eq_ok_iff.trans ?_
  simp only [operation, clearSelection, grants_change_bind, grants_change, record]

theorem perform_getAttribute :
    g.perform (.getAttribute p) = .ok (v, g') ↔ g.getAttribute p = .ok v ∧ g' = g := by
  refine perform_eq_ok_iff.trans ?_
  simp only [operation, grants_look]

theorem perform_isLocked :
    g.perform (.isLocked p) = .ok (locked, g') ↔ g.isLocked p = .ok locked ∧ g' = g := by
  refine perform_eq_ok_iff.trans ?_
  simp only [operation, grants_look]

theorem perform_listConstructs {names : List String} :
    g.perform (.listConstructs name) = .ok (names, g') ↔
      names = g.listConstructs name ∧ g' = g := by
  refine perform_eq_ok_iff.trans ?_
  simp only [operation, grants_look, Except.ok.injEq, eq_comm (a := names)]

theorem perform_listIncoming {sources : Option (List Plug)} :
    g.perform (.listIncoming p) = .ok (sources, g') ↔
      g.listIncoming p = .ok sources ∧ g' = g := by
  refine perform_eq_ok_iff.trans ?_
  simp only [operation, grants_look]

end Perform

/-- **A request that only asks leaves the graph as it is.** -/
theorem eq_of_asks {r : Request} {reply : r.Reply} (hr : r.asks = true)
    (h : g.perform r = .ok (reply, g')) : g' = g := by
  cases r with
  | getAttribute p => exact (perform_getAttribute.1 h).2
  | isLocked p => exact (perform_isLocked.1 h).2
  | listConstructs hostType => exact (perform_listConstructs.1 h).2
  | listIncoming p => exact (perform_listIncoming.1 h).2
  | _ => cases hr

/-! ### Refused requests -/

/-- **An operation that is refused leaves the graph as it was.** It has changed nothing when it is
refused for what it saw, and the deletion of a node that is not there has removed nothing. -/
theorem eq_of_refuses {r : Request} {e : GraphError} (h : (operation r).Refuses g e g') :
    g' = g := by
  cases r with
  | createNode kind =>
      simp only [operation, createNode, refuses_get_bind, refuses_change_bind] at h
      exact absurd h not_refuses_pure
  | setAttribute p v =>
      refine eq_of_refuses_look_bind h fun n hn => ?_
      simp only [refuses_get_bind] at hn
      split at hn
      · exact (refuses_throw.1 (by simpa using hn)).2
      · simp [refuses_change_bind, not_refuses_change] at hn
  | connect source dest force =>
      refine eq_of_refuses_look_bind h fun _ hsource => ?_
      refine eq_of_refuses_look_bind hsource fun _ hdest => ?_
      simp only [refuses_get_bind] at hdest
      split at hdest
      · exact (refuses_throw.1 (by simpa using hdest)).2
      · simp [refuses_change_bind, not_refuses_change] at hdest
  | disconnect dest =>
      refine eq_of_refuses_look_bind h fun _ hdest => ?_
      simp only [refuses_get_bind, refuses_change_bind] at hdest
      split at hdest
      · exact absurd hdest not_refuses_change
      · exact absurd hdest not_refuses_pure
  | setLocked p locked =>
      exact eq_of_refuses_look_bind h fun _ hp => absurd hp not_refuses_change
  | createKeyframe curve key =>
      exact eq_of_refuses_look_bind h fun _ hcurve => absurd hcurve not_refuses_change
  | setExtrapolation curve pre post =>
      exact eq_of_refuses_look_bind h fun _ hcurve => absurd hcurve not_refuses_change
  | deleteNode name =>
      simp only [operation, deleteNode, refuses_get_bind, refuses_change_bind] at h
      cases hn : g.nodes[name]? with
      | none =>
          obtain ⟨-, rfl⟩ := refuses_throw.1 (by simpa [hn] using h)
          rw [erase_of_getElem?_eq_none hn]
      | some n => simp [hn, refuses_change_bind, not_refuses_change] at h
  | clearSelection => exact absurd h not_refuses_change
  | getAttribute p | isLocked p | listConstructs p | listIncoming p =>
      exact (refuses_look.1 h).2

/-- **A refused request leaves the graph as it was**, and a granted one leaves the graph that was
performed. -/
theorem host_respond (g : Graph) (r : Request) :
    host.respond g r = match g.perform r with
      | .ok (reply, g') => (.ok reply, g')
      | .error e => (.error e, g) := by
  rcases hrun : host.respond g r with ⟨e | reply, g'⟩
  · simp only [perform, hrun, eq_of_refuses hrun]
  · simp only [perform, hrun]

end Graph

end RigScript
