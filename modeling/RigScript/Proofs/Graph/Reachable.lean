import RigScript.Proofs.Graph.Naming
import RigScript.Scene

/-!
# The states of a scene graph

A scene graph starts without nodes or from a scene, and changes by setting it up and by requests.
Everything that happens to it in between, a compilation for instance, is a dialogue of requests. In
every state that it reaches, connections join nodes that exist, selected nodes exist, locked
attributes are present, and only curves have keys.

## Main definitions

* `RigScript.Graph.WellFormed`: the representation invariant
* `RigScript.Graph.Reachable`: the states that a scene graph can be in

## Main results

* `RigScript.Graph.WellFormed.perform`: a request keeps the invariant
* `RigScript.Graph.Reachable.wellFormed`: the invariant holds in every reachable state
* `RigScript.Graph.run_preserves`: what every request keeps, a dialogue keeps
-/

namespace RigScript

/-- A node is **well-formed** when its locks are on attributes that are present and it has keys
only if it is a curve. -/
structure Node.WellFormed (n : Node) : Prop where
  /-- What is locked is stored or an array element. -/
  locked : ∀ attr ∈ n.locked, attr ∈ n.attributes ∨ Graph.isElement attr = true
  /-- Only curves have keys or repeat. -/
  curve : n.kind ≠ .primitive .rampCurve → n.curve = {}

namespace Graph

/-- The **representation invariant** of a scene graph. -/
structure WellFormed (g : Graph) : Prop where
  /-- The nodes are well-formed. -/
  nodes : ∀ (name : String) (n : Node), g.nodes[name]? = some n → n.WellFormed
  /-- A connection ends on a node. -/
  dest_mem : ∀ dest source, g.source? dest = some source → dest.node ∈ g.nodes
  /-- A connection starts on a node. -/
  source_mem : ∀ dest source, g.source? dest = some source → source.node ∈ g.nodes
  /-- The selected nodes exist. -/
  selection_mem : ∀ name ∈ g.selection, name ∈ g.nodes

/-- The states that a scene graph can be in: it starts empty, is set up, and answers requests. -/
inductive Reachable : Graph → Prop
  | empty : Reachable Graph.empty
  | addNode {g : Graph} (name : String) (kind : NodeKind) :
      g.Reachable → (g.addNode name kind).Reachable
  | addAttribute {g : Graph} (p : Plug) (v : Value) : g.Reachable → (g.addAttribute p v).Reachable
  | lock {g g' : Graph} {p : Plug} : g.Reachable → g.lock p = .ok g' → g'.Reachable
  | addConnection {g g' : Graph} {source dest : Plug} :
      g.Reachable → g.addConnection source dest = .ok g' → g'.Reachable
  | select {g g' : Graph} {name : String} : g.Reachable → g.select name = .ok g' → g'.Reachable
  | clearJournal {g : Graph} : g.Reachable → g.clearJournal.Reachable
  | request {g g' : Graph} {r : Request} {reply : r.Reply} :
      g.Reachable → g.perform r = .ok (reply, g') → g'.Reachable

end Graph

/-! ### The invariant, node by node -/

namespace Node.WellFormed

variable {n : Node}

/-- A fresh node is well-formed. -/
theorem ofKind (kind : NodeKind) : (Node.ofKind kind).WellFormed where
  locked := by simp [Node.ofKind]
  curve _ := rfl

/-- Storing an attribute keeps a node well-formed. -/
theorem insertAttribute (h : n.WellFormed) (attr : String) (v : Value) :
    Node.WellFormed { n with attributes := n.attributes.insert attr v } where
  locked a ha := by
    obtain hs | he := h.locked a ha
    · exact .inl (Std.ExtTreeMap.mem_insert.2 (.inr hs))
    · exact .inr he
  curve := h.curve

/-- Locking an attribute that is present keeps a node well-formed. -/
theorem insertLock (h : n.WellFormed) {attr : String}
    (hattr : attr ∈ n.attributes ∨ Graph.isElement attr = true) :
    Node.WellFormed { n with locked := n.locked.insert attr } where
  locked a ha := by
    obtain heq | ha := Std.ExtTreeSet.mem_insert.1 ha
    · obtain rfl : attr = a := Std.LawfulEqOrd.eq_of_compare heq
      exact hattr
    · exact h.locked a ha
  curve := h.curve

/-- Lifting a lock keeps a node well-formed. -/
theorem eraseLock (h : n.WellFormed) (attr : String) :
    Node.WellFormed { n with locked := n.locked.erase attr } where
  locked a ha := h.locked a (Std.ExtTreeSet.mem_erase.1 ha).2
  curve := h.curve

/-- Changing the keys of a curve keeps it well-formed. -/
theorem setCurve (h : n.WellFormed) (hk : n.kind = .primitive .rampCurve) (c : Curve Float) :
    Node.WellFormed { n with curve := c } where
  locked := h.locked
  curve hne := absurd hk hne

end Node.WellFormed

/-! ### The invariant, request by request -/

namespace Graph

variable {g g' : Graph}

/-- The names of a graph in which one node was put. -/
theorem mem_insert_node {name m : String} {n : Node} :
    m ∈ g.nodes.insert name n ↔ name = m ∨ m ∈ g.nodes := by
  rw [Std.ExtTreeMap.mem_insert, Std.LawfulEqOrd.compare_eq_iff_eq]

/-- A found node is there. -/
theorem mem_nodes_of_eq_some {name : String} {n : Node} (h : g.nodes[name]? = some n) :
    name ∈ g.nodes :=
  Std.ExtTreeMap.mem_iff_isSome_getElem?.2 (by simp [h])

namespace WellFormed

theorem empty : Graph.empty.WellFormed where
  nodes name n h := by simp [Graph.empty] at h
  dest_mem dest source h := by simp [Graph.empty, source?] at h
  source_mem dest source h := by simp [Graph.empty, source?] at h
  selection_mem name h := by simp [Graph.empty] at h

/-- Putting a well-formed node under a name keeps the invariant, whatever is entered in the
journal. -/
theorem putNode (h : g.WellFormed) (name : String) {n : Node} (hn : n.WellFormed)
    (journal : List Change) :
    WellFormed { g with nodes := g.nodes.insert name n, journal } where
  nodes m k hm := by
    simp only [Std.ExtTreeMap.getElem?_insert] at hm
    split at hm
    · cases hm
      exact hn
    · exact h.nodes m k hm
  dest_mem dest source hs := mem_insert_node.2 (.inr (h.dest_mem dest source hs))
  source_mem dest source hs := mem_insert_node.2 (.inr (h.source_mem dest source hs))
  selection_mem m hm := mem_insert_node.2 (.inr (h.selection_mem m hm))

/-- Connecting plugs of two nodes that exist keeps the invariant. -/
theorem putConnection (h : g.WellFormed) {source dest : Plug} (hs : source.node ∈ g.nodes)
    (hd : dest.node ∈ g.nodes) (journal : List Change) :
    WellFormed { g with connections := g.connections.insert dest source, journal } where
  nodes := h.nodes
  dest_mem d s hds := by
    simp only [source?, Std.ExtTreeMap.getElem?_insert] at hds
    split at hds
    · next heq =>
      obtain rfl : dest = d := Std.LawfulEqOrd.eq_of_compare heq
      exact hd
    · exact h.dest_mem d s hds
  source_mem d s hds := by
    simp only [source?, Std.ExtTreeMap.getElem?_insert] at hds
    split at hds
    · cases hds
      exact hs
    · exact h.source_mem d s hds
  selection_mem := h.selection_mem

/-- Removing a connection keeps the invariant. -/
theorem eraseConnection (h : g.WellFormed) (dest : Plug) (journal : List Change) :
    WellFormed { g with connections := g.connections.erase dest, journal } := by
  have hold : ∀ d s, (g.connections.erase dest)[d]? = some s → g.source? d = some s := by
    intro d s hds
    rw [Std.ExtTreeMap.getElem?_erase] at hds
    split at hds
    · cases hds
    · exact hds
  exact {
    nodes := h.nodes
    dest_mem := fun d s hds => h.dest_mem d s (hold d s hds)
    source_mem := fun d s hds => h.source_mem d s (hold d s hds)
    selection_mem := h.selection_mem }

/-- Deleting a node together with its connections and its place in the selection keeps the
invariant. -/
theorem eraseNode (h : g.WellFormed) (name : String) (journal : List Change) :
    WellFormed { g with
      nodes := g.nodes.erase name
      connections := g.connections.filter fun dest source =>
        dest.node != name && source.node != name
      selection := g.selection.filter (· != name)
      journal } := by
  have hmem : ∀ m, m ≠ name → m ∈ g.nodes → m ∈ g.nodes.erase name := by
    intro m hne hm
    exact Std.ExtTreeMap.mem_erase.2
      ⟨fun heq => hne (Std.LawfulEqOrd.eq_of_compare heq).symm, hm⟩
  have hold : ∀ d s, (g.connections.filter fun dest source =>
      dest.node != name && source.node != name)[d]? = some s →
      g.source? d = some s ∧ d.node ≠ name ∧ s.node ≠ name := by
    intro d s hds
    rw [Std.ExtTreeMap.getElem?_filter', Option.filter_eq_some_iff] at hds
    exact ⟨hds.1, by simpa using hds.2⟩
  refine ⟨?_, ?_, ?_, ?_⟩
  · intro m n hm
    rw [Std.ExtTreeMap.getElem?_erase] at hm
    split at hm
    · cases hm
    · exact h.nodes m n hm
  · intro d s hds
    obtain ⟨hs, hd, -⟩ := hold d s hds
    exact hmem _ hd (h.dest_mem d s hs)
  · intro d s hds
    obtain ⟨hs, -, hne⟩ := hold d s hds
    exact hmem _ hne (h.source_mem d s hs)
  · intro m hm
    rw [List.mem_filter] at hm
    exact hmem m (by simpa using hm.2) (h.selection_mem m hm.1)

/-- **A request keeps the invariant.** -/
theorem perform (h : g.WellFormed) {r : Request} {reply : r.Reply}
    (hr : g.perform r = .ok (reply, g')) : g'.WellFormed := by
  cases r with
  | createNode kind =>
      obtain ⟨-, rfl⟩ := perform_createNode.1 hr
      exact h.putNode _ (.ofKind kind) _
  | setAttribute p v =>
      obtain ⟨n, hn, -, -, rfl⟩ := perform_setAttribute.1 hr
      exact h.putNode _ ((h.nodes _ _ (checkAttr_eq_ok_iff.1 hn).1).insertAttribute _ _) _
  | connect source dest force =>
      obtain ⟨⟨m, hm⟩, ⟨n, hn, -⟩, -, rfl⟩ := perform_connect.1 hr
      exact h.putConnection (mem_nodes_of_eq_some (checkAttr_eq_ok_iff.1 hm).1)
        (mem_nodes_of_eq_some (checkAttr_eq_ok_iff.1 hn).1) _
  | disconnect dest =>
      obtain ⟨-, rfl⟩ := perform_disconnect.1 hr
      exact h.eraseConnection dest _
  | setLocked p locked =>
      obtain ⟨n, hn, rfl⟩ := perform_setLocked.1 hr
      obtain ⟨hnode, hattr⟩ := checkAttr_eq_ok_iff.1 hn
      refine h.putNode _ ?_ _
      cases locked with
      | true => exact (h.nodes _ _ hnode).insertLock hattr
      | false => exact (h.nodes _ _ hnode).eraseLock _
  | createKeyframe curve key =>
      obtain ⟨n, hn, rfl⟩ := perform_createKeyframe.1 hr
      obtain ⟨hnode, hk⟩ := checkCurve_eq_ok_iff.1 hn
      exact h.putNode _ ((h.nodes _ _ hnode).setCurve hk _) _
  | setExtrapolation curve pre post =>
      obtain ⟨n, hn, rfl⟩ := perform_setExtrapolation.1 hr
      obtain ⟨hnode, hk⟩ := checkCurve_eq_ok_iff.1 hn
      exact h.putNode _ ((h.nodes _ _ hnode).setCurve hk _) _
  | deleteNode name =>
      obtain ⟨-, rfl⟩ := perform_deleteNode.1 hr
      exact h.eraseNode name _
  | getAttribute p | isLocked p | listConstructs p | listIncoming p =>
      obtain rfl := eq_of_asks rfl hr
      exact h
  | clearSelection =>
      obtain rfl := perform_clearSelection.1 hr
      exact { h with selection_mem := by simp }

/-- Setting up an attribute keeps the invariant. -/
theorem addAttribute (h : g.WellFormed) (p : Plug) (v : Value) :
    (g.addAttribute p v).WellFormed := by
  unfold Graph.addAttribute
  split
  · next n hn => exact h.putNode _ ((h.nodes _ _ hn).insertAttribute _ _) g.journal
  · exact h

/-- Setting up a lock keeps the invariant. -/
theorem lock (h : g.WellFormed) {p : Plug} (hl : g.lock p = .ok g') : g'.WellFormed := by
  simp only [Graph.lock, bind_eq_ok_iff] at hl
  obtain ⟨n, hn, hl⟩ := hl
  obtain ⟨hnode, hattr⟩ := checkAttr_eq_ok_iff.1 hn
  cases hl
  exact h.putNode _ ((h.nodes _ _ hnode).insertLock hattr) g.journal

/-- Setting up a connection keeps the invariant. -/
theorem addConnection (h : g.WellFormed) {source dest : Plug}
    (hc : g.addConnection source dest = .ok g') : g'.WellFormed := by
  simp only [Graph.addConnection, bind_eq_ok_iff] at hc
  obtain ⟨m, hm, n, hn, hc⟩ := hc
  cases hc
  exact h.putConnection (mem_nodes_of_eq_some (checkAttr_eq_ok_iff.1 hm).1)
    (mem_nodes_of_eq_some (checkAttr_eq_ok_iff.1 hn).1) g.journal

/-- Setting up the selection keeps the invariant. -/
theorem select (h : g.WellFormed) {name : String} (hs : g.select name = .ok g') :
    g'.WellFormed := by
  simp only [Graph.select, bind_eq_ok_iff, node_eq_ok_iff] at hs
  obtain ⟨n, hn, hs⟩ := hs
  cases hs
  refine { h with selection_mem := ?_ }
  intro m hm
  obtain hm | rfl : m ∈ g.selection ∨ m = name := by simpa using hm
  · exact h.selection_mem m hm
  · exact mem_nodes_of_eq_some hn

end WellFormed

/-- What every request keeps, a dialogue keeps. -/
theorem run_preserves {α : Type} {P : Graph → Prop}
    (hstep : ∀ {g g' : Graph} {r : Request} {reply : r.Reply},
      P g → g.perform r = .ok (reply, g') → P g') (d : Dialogue α) (h : P g) :
    P (d.run Graph.host g).2 := by
  induction d generalizing g with
  | done a => exact h
  | ask r next ih =>
      simp only [Dialogue.run, Graph.host_respond]
      cases hr : g.perform r with
      | error e => exact ih _ h
      | ok out => exact ih _ (hstep h hr)

/-! ### Reachable states -/

namespace Reachable

/-- **The invariant holds in every reachable state.** -/
theorem wellFormed (h : g.Reachable) : g.WellFormed := by
  induction h with
  | empty => exact .empty
  | @addNode g name kind _ ih => exact ih.putNode name (.ofKind kind) g.journal
  | addAttribute p v _ ih => exact ih.addAttribute p v
  | lock _ hl ih => exact ih.lock hl
  | addConnection _ hc ih => exact ih.addConnection hc
  | select _ hs ih => exact ih.select hs
  | clearJournal _ ih => exact { ih with }
  | request _ hr ih => exact ih.perform hr

/-- A series of fallible steps that each keep a graph reachable keeps it reachable. -/
theorem foldlM {α : Type} {f : Graph → α → Except GraphError Graph}
    (hf : ∀ g x g', g.Reachable → f g x = .ok g' → g'.Reachable) {xs : List α}
    (h : g.Reachable) (hxs : xs.foldlM f g = .ok g') : g'.Reachable := by
  induction xs generalizing g with
  | nil =>
      cases hxs
      exact h
  | cons x xs ih =>
      rw [List.foldlM_cons, bind_eq_ok_iff] at hxs
      obtain ⟨mid, hmid, hxs⟩ := hxs
      exact ih (hf g x mid h hmid) hxs

/-- A step of setting up a scene leads to a reachable graph, also when it is refused. -/
theorem getD (hg : g.Reachable) {x : Except GraphError Graph}
    (hx : ∀ {g'}, x = .ok g' → g'.Reachable) : (x.toOption.getD g).Reachable := by
  cases x with
  | error e => exact hg
  | ok g' => exact hx rfl

/-- The graph of a scene is reachable: a scene is a way of setting a graph up. -/
theorem ofScene {s : Scene} (h : Graph.ofScene s = .ok g) : g.Reachable := by
  simp only [Graph.ofScene, bind_eq_ok_iff] at h
  obtain ⟨g₁, h₁, g₂, h₂, h₃⟩ := h
  have hnodes : g₁.Reachable := by
    refine foldlM (fun g n g' hg hn => ?_) .empty h₁
    have hfilled : ∀ (es : List (String × Value)) (g : Graph), g.Reachable →
        (es.foldl (fun g e => g.addAttribute ⟨n.name, e.1⟩ e.2) g).Reachable := by
      intro es
      induction es with
      | nil => exact fun g hg => hg
      | cons e es ih => exact fun g hg => ih _ (hg.addAttribute _ _)
    exact foldlM (fun _ _ _ hg hl => hg.lock hl) (hfilled _ _ (hg.addNode n.name n.kind)) hn
  have hwired : g₂.Reachable :=
    foldlM (fun _ _ _ hg hc => hg.addConnection hc) hnodes h₂
  exact foldlM (fun _ _ _ hg hs => hg.select hs) hwired h₃

/-- Whatever is said to a reachable graph, it stays reachable. -/
theorem run {α : Type} (d : Dialogue α) (h : g.Reachable) :
    (d.run Graph.host g).2.Reachable :=
  run_preserves (fun hg hr => hg.request hr) d h

end Reachable

end Graph

end RigScript
