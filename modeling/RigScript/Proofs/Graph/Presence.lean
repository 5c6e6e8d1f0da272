import RigScript.Proofs.Graph.Reachable

/-!
# Presence

A plug is present when its node is there and its attribute is stored or an array element. Requests
write only to plugs that are present, so on a node that was there no plug comes or goes until the
node is deleted.

## Main definitions

* `RigScript.Graph.Present`: a plug is there
* `RigScript.Graph.Grows`: nodes may be added, and on the others the same plugs are there

## Main results

* `RigScript.Graph.Grows.perform`: **a graph grows with every request that deletes no node**
-/

namespace RigScript.Graph

variable {g g' g'' : Graph} {p : Plug}

/-- A plug is **present**: its node is there, and its attribute is stored or an array element. -/
def Present (g : Graph) (p : Plug) : Prop :=
  ∃ n, g.nodes[p.node]? = some n ∧ (p.attr ∈ n.attributes ∨ isElement p.attr = true)

theorem present_iff : g.Present p ↔ ∃ n, g.checkAttr p = .ok n :=
  exists_congr fun _ => checkAttr_eq_ok_iff.symm

theorem Present.node_mem (h : g.Present p) : p.node ∈ g.nodes := by
  obtain ⟨n, hn, -⟩ := h
  exact mem_nodes_of_eq_some hn

/-- A graph **grows** into another one: no node is lost, and on the nodes that were there the same
plugs are present. -/
def Grows (g g' : Graph) : Prop :=
  ∀ name ∈ g.nodes, name ∈ g'.nodes ∧ ∀ attr, g'.Present ⟨name, attr⟩ ↔ g.Present ⟨name, attr⟩

namespace Grows

theorem refl (g : Graph) : g.Grows g :=
  fun _ hname => ⟨hname, fun _ => Iff.rfl⟩

theorem trans (h : g.Grows g') (h' : g'.Grows g'') : g.Grows g'' := by
  intro name hname
  obtain ⟨hmem, hpresent⟩ := h name hname
  obtain ⟨hmem', hpresent'⟩ := h' name hmem
  exact ⟨hmem', fun attr => (hpresent' attr).trans (hpresent attr)⟩

theorem present_iff (h : g.Grows g') (hp : p.node ∈ g.nodes) : g'.Present p ↔ g.Present p :=
  (h p.node hp).2 p.attr

theorem present (h : g.Grows g') (hp : g.Present p) : g'.Present p :=
  (h.present_iff hp.node_mem).2 hp

/-- A node is replaced by one with the same plugs. -/
theorem putNode {name : String} {n m : Node} (hn : g.nodes[name]? = some n)
    (hm : ∀ attr, attr ∈ m.attributes ∨ isElement attr = true ↔
      attr ∈ n.attributes ∨ isElement attr = true) (journal : List Change) :
    g.Grows { g with nodes := g.nodes.insert name m, journal } := by
  intro name' hname'
  refine ⟨mem_insert_node.2 (.inr hname'), fun attr => ?_⟩
  simp only [Present, Std.ExtTreeMap.getElem?_insert, Std.LawfulEqOrd.compare_eq_iff_eq]
  split
  · next heq =>
    subst heq
    simp [hn, hm]
  · rfl

/-- A node is added under a free name. -/
theorem addNode {name : String} (hname : name ∉ g.nodes) (m : Node) (journal : List Change) :
    g.Grows { g with nodes := g.nodes.insert name m, journal } := by
  intro name' hname'
  have hne : name ≠ name' := by
    rintro rfl
    exact hname hname'
  refine ⟨mem_insert_node.2 (.inr hname'), fun attr => ?_⟩
  simp only [Present, Std.ExtTreeMap.getElem?_insert, Std.LawfulEqOrd.compare_eq_iff_eq,
    if_neg hne]

/-- **A graph grows with every request that deletes no node.** -/
theorem perform {r : Request} {reply : r.Reply} (hr : g.perform r = .ok (reply, g'))
    (hne : ∀ name, r ≠ .deleteNode name) : g.Grows g' := by
  cases r with
  | createNode kind =>
      obtain ⟨-, rfl⟩ := perform_createNode.1 hr
      exact addNode (g.freshName_notMem kind) _ _
  | setAttribute q v =>
      obtain ⟨n, hn, -, -, rfl⟩ := perform_setAttribute.1 hr
      obtain ⟨hnode, hattr⟩ := checkAttr_eq_ok_iff.1 hn
      refine putNode hnode (fun attr => ?_) _
      rw [Std.ExtTreeMap.mem_insert, Std.LawfulEqOrd.compare_eq_iff_eq]
      constructor
      · rintro ((rfl | hmem) | helem)
        · exact hattr
        · exact .inl hmem
        · exact .inr helem
      · rintro (hmem | helem)
        · exact .inl (.inr hmem)
        · exact .inr helem
  | setLocked q locked =>
      obtain ⟨n, hn, rfl⟩ := perform_setLocked.1 hr
      refine putNode (checkAttr_eq_ok_iff.1 hn).1 ?_ _
      exact fun _ => Iff.rfl
  | createKeyframe curve key =>
      obtain ⟨n, hn, rfl⟩ := perform_createKeyframe.1 hr
      refine putNode (checkCurve_eq_ok_iff.1 hn).1 ?_ _
      exact fun _ => Iff.rfl
  | setExtrapolation curve pre post =>
      obtain ⟨n, hn, rfl⟩ := perform_setExtrapolation.1 hr
      refine putNode (checkCurve_eq_ok_iff.1 hn).1 ?_ _
      exact fun _ => Iff.rfl
  | deleteNode name => exact absurd rfl (hne name)
  | connect source dest force =>
      obtain ⟨-, -, -, rfl⟩ := perform_connect.1 hr
      exact refl _
  | disconnect dest =>
      obtain ⟨-, rfl⟩ := perform_disconnect.1 hr
      exact refl _
  | clearSelection =>
      obtain rfl := perform_clearSelection.1 hr
      exact refl _
  | getAttribute q | isLocked q | listConstructs q | listIncoming q =>
      obtain rfl := eq_of_asks rfl hr
      exact refl _

end Grows

end RigScript.Graph
