import RigScript.Proofs.Graph.Journal
import RigScript.Proofs.Graph.Reachable

/-!
# What requests do to a plug

A scene graph holds three things at a plug: what is stored there, what is connected to it, and
whether it is locked. As long as the node is there, a request that is granted changes them in a way
that depends on nothing else. So the plug is a small machine of its own, which every request drives
one step further, and what holds of the plug after any requests is read off its steps.

A locked plug refuses to be written, connected and disconnected. What is left are requests that lift
its lock or delete its node, and deletions of the node that it is connected from.

## Main definitions

* `RigScript.Graph.holding`: what a scene graph holds at a plug
* `RigScript.Request.effect`: what a granted request makes of it

## Main results

* `RigScript.Graph.holding_perform`: **the step of a plug**
* `RigScript.Graph.effect_of_isLocked`: a locked plug refuses to be changed
* `RigScript.Graph.holding_afterRequests`: what a locked plug holds after any requests
* `RigScript.Graph.locks_protect`: **locks protect**
-/

namespace RigScript

/-- What a scene graph holds at a plug. -/
structure Holding where
  /-- The stored value. -/
  value : Option Value
  /-- The plug that is connected to it. -/
  source : Option Plug
  /-- Whether it is locked, unless it is not there. -/
  locked : Except GraphError Bool

/-- What a scene graph **holds** at a plug. -/
def Graph.holding (g : Graph) (p : Plug) : Holding :=
  ⟨g.value? p, g.source? p, g.isLocked p⟩

/-- **The effect of a granted request** on what is held at a plug whose node stays. -/
def Request.effect (p : Plug) (h : Holding) : Request → Holding
  | setAttribute q v => if q = p then { h with value := some (v.storedOver h.value) } else h
  | connect source q _ => if q = p then { h with source := some source } else h
  | disconnect q => if q = p then { h with source := none } else h
  | setLocked q locked => if q = p then { h with locked := .ok locked } else h
  | deleteNode name => { h with source := h.source.filter (·.node != name) }
  | _ => h

/-- What a node contributes to what is held at a plug of it. -/
def Node.holding (n : Node) (p : Plug) (source : Option Plug) : Holding where
  value := n.attributes[p.attr]?
  source := source
  locked := if p.attr ∈ n.attributes ∨ Graph.isElement p.attr = true
    then .ok (n.locked.contains p.attr) else .error (.unknownAttribute p)

namespace Node

variable {n : Node} {p : Plug} {attr : String}

/-- Writing one attribute leaves the others as they are. -/
theorem holding_insertAttribute (hne : attr ≠ p.attr) (v : Value) (source : Option Plug) :
    Node.holding { n with attributes := n.attributes.insert attr v } p source =
      n.holding p source := by
  simp only [holding, Std.ExtTreeMap.getElem?_insert, Std.ExtTreeMap.mem_insert,
    Std.LawfulEqOrd.compare_eq_iff_eq, hne, if_false, false_or]

/-- Locking or unlocking one attribute leaves the others as they are. -/
theorem holding_setLocks (hne : attr ≠ p.attr) (locked : Bool) (source : Option Plug) :
    Node.holding { n with locked := if locked then n.locked.insert attr else n.locked.erase attr }
      p source = n.holding p source := by
  have hmem : (if locked then n.locked.insert attr else n.locked.erase attr).contains p.attr =
      n.locked.contains p.attr := by
    rw [Bool.eq_iff_iff]
    cases locked <;> simp [hne]
  simp only [holding, hmem]

end Node

namespace Graph

variable {g g' : Graph} {p : Plug} {n m : Node}

/-! ### The step of a plug -/

/-- What is held at a plug of a node that is there. -/
theorem holding_of_node (hn : g.nodes[p.node]? = some n) :
    g.holding p = n.holding p (g.source? p) := by
  have hlocked : g.isLocked p = (n.holding p (g.source? p)).locked := by
    simp only [isLocked, checkAttr, node, hn, bind, Except.bind, Node.holding]
    by_cases hattr : p.attr ∈ n.attributes ∨ isElement p.attr = true
    · rw [if_pos hattr, if_pos (by simpa using hattr)]
      rfl
    · rw [if_neg hattr, if_neg (by simpa using hattr)]
      rfl
  rw [holding, hlocked, value?, hn]
  rfl

/-- Graphs with the same node differ at its plugs only in what is connected to them. -/
theorem holding_congr (hnode : g'.nodes[p.node]? = g.nodes[p.node]?) {source : Option Plug}
    (hsource : g'.source? p = source) : g'.holding p = { g.holding p with source } := by
  simp only [holding, value?, isLocked, checkAttr, node, hnode, hsource]

/-- Putting a node under a name leaves the plugs of other nodes as they are. -/
theorem holding_putNode_of_ne {name : String} (hname : name ≠ p.node) (m : Node)
    (journal : List Change) :
    holding { g with nodes := g.nodes.insert name m, journal } p = g.holding p := by
  refine holding_congr (g := g) ?_ rfl
  rw [Std.ExtTreeMap.getElem?_insert, if_neg (by simpa using hname)]

/-- A node is put in the place of another one that holds the same at the plug. -/
theorem holding_putNode {name : String} (hn : g.nodes[name]? = some n)
    (hsame : name = p.node → m.holding p (g.source? p) = n.holding p (g.source? p))
    (journal : List Change) :
    holding { g with nodes := g.nodes.insert name m, journal } p = g.holding p := by
  by_cases hname : name = p.node
  · subst hname
    rw [holding_of_node hn, ← hsame rfl]
    exact holding_of_node Std.ExtTreeMap.getElem?_insert_self
  · exact holding_putNode_of_ne hname m journal

/-- Plugs of one node differ in their attributes. -/
theorem attr_ne_of_ne {q : Plug} (hne : q ≠ p) (hnode : q.node = p.node) : q.attr ≠ p.attr := by
  intro hattr
  apply hne
  cases p
  cases q
  simp_all

/-- **The step of a plug.** A request that is granted has its effect on what is held at a plug,
unless it deletes the node of the plug. -/
theorem holding_perform {r : Request} {reply : r.Reply} (hp : p.node ∈ g.nodes)
    (hr : g.perform r = .ok (reply, g')) (hne : r ≠ .deleteNode p.node) :
    g'.holding p = r.effect p (g.holding p) := by
  cases r with
  | createNode kind =>
      obtain ⟨-, rfl⟩ := perform_createNode.1 hr
      -- The name of the new node is free, so it does not take the place of the node of the plug.
      refine holding_putNode_of_ne (fun hname => ?_) _ _
      exact g.freshName_notMem kind (hname ▸ hp)
  | setAttribute q v =>
      obtain ⟨n, hn, -, -, rfl⟩ := perform_setAttribute.1 hr
      obtain ⟨hnode, hattr⟩ := checkAttr_eq_ok_iff.1 hn
      by_cases hq : q = p
      · subst hq
        rw [Request.effect, if_pos rfl, holding_of_node hnode]
        refine (holding_of_node Std.ExtTreeMap.getElem?_insert_self).trans ?_
        simp [Node.holding, hattr, source?]
      · rw [Request.effect, if_neg hq]
        exact holding_putNode hnode
          (fun hname => Node.holding_insertAttribute (attr_ne_of_ne hq hname) _ _) _
  | connect source q force =>
      obtain ⟨-, -, -, rfl⟩ := perform_connect.1 hr
      by_cases hq : q = p
      · subst hq
        rw [Request.effect, if_pos rfl]
        refine holding_congr (g := g) ?_ Std.ExtTreeMap.getElem?_insert_self
        rfl
      · rw [Request.effect, if_neg hq]
        refine holding_congr (g := g) ?_ (by simp [source?, Std.ExtTreeMap.getElem?_insert, hq])
        rfl
  | disconnect q =>
      obtain ⟨-, rfl⟩ := perform_disconnect.1 hr
      by_cases hq : q = p
      · subst hq
        rw [Request.effect, if_pos rfl]
        refine holding_congr (g := g) ?_ Std.ExtTreeMap.getElem?_erase_self
        rfl
      · rw [Request.effect, if_neg hq]
        refine holding_congr (g := g) ?_ (by simp [source?, Std.ExtTreeMap.getElem?_erase, hq])
        rfl
  | setLocked q locked =>
      obtain ⟨n, hn, rfl⟩ := perform_setLocked.1 hr
      obtain ⟨hnode, hattr⟩ := checkAttr_eq_ok_iff.1 hn
      by_cases hq : q = p
      · subst hq
        rw [Request.effect, if_pos rfl, holding_of_node hnode]
        refine (holding_of_node Std.ExtTreeMap.getElem?_insert_self).trans ?_
        cases locked <;> simp [Node.holding, hattr, source?]
      · rw [Request.effect, if_neg hq]
        exact holding_putNode hnode
          (fun hname => Node.holding_setLocks (attr_ne_of_ne hq hname) _ _) _
  | createKeyframe curve key =>
      obtain ⟨n, hn, rfl⟩ := perform_createKeyframe.1 hr
      refine holding_putNode (checkCurve_eq_ok_iff.1 hn).1 ?_ _
      exact fun _ => rfl
  | setExtrapolation curve pre post =>
      obtain ⟨n, hn, rfl⟩ := perform_setExtrapolation.1 hr
      refine holding_putNode (checkCurve_eq_ok_iff.1 hn).1 ?_ _
      exact fun _ => rfl
  | deleteNode name =>
      obtain ⟨-, rfl⟩ := perform_deleteNode.1 hr
      have hname : name ≠ p.node := fun heq => hne (heq ▸ rfl)
      have hnode : (g.nodes.erase name)[p.node]? = g.nodes[p.node]? := by
        rw [Std.ExtTreeMap.getElem?_erase, if_neg (by simpa using hname)]
      refine holding_congr hnode ?_
      rw [source?, Std.ExtTreeMap.getElem?_filter', holding, source?]
      simp only [bne_iff_ne.2 hname.symm, Bool.true_and]
  | clearSelection =>
      obtain rfl := perform_clearSelection.1 hr
      rfl
  | getAttribute q | isLocked q | listConstructs q | listIncoming q =>
      obtain rfl := eq_of_asks rfl hr
      rfl

/-! ### Locked plugs -/

/-- A plug that is answered to be locked is on a node that is there. -/
theorem node_mem_of_isLocked {locked : Bool} (h : g.isLocked p = .ok locked) :
    p.node ∈ g.nodes := by
  simp only [isLocked, bind_eq_ok_iff] at h
  obtain ⟨n, hn, -⟩ := h
  exact mem_nodes_of_eq_some (checkAttr_eq_ok_iff.1 hn).1

/-- A plug that may be written is not locked. -/
theorem ne_of_notMem_locked {q : Plug} (hlocked : g.isLocked p = .ok true)
    (hn : g.checkAttr q = .ok n) (hattr : q.attr ∉ n.locked) : q ≠ p := by
  rintro rfl
  simp only [isLocked, bind_eq_ok_iff] at hlocked
  obtain ⟨m, hm, hcontains⟩ := hlocked
  obtain rfl : n = m := Except.ok.inj (hn.symm.trans hm)
  exact hattr (Std.ExtTreeSet.contains_iff_mem.1 (Except.ok.inj hcontains))

/-- A source that is not filtered out stays. -/
theorem filter_source_eq_self {source : Option Plug} {stays : Plug → Bool}
    (h : ∀ s, source = some s → stays s = true) : source.filter stays = source := by
  cases source with
  | none => rfl
  | some s => exact Option.filter_some_pos (h s rfl)

/-- **A locked plug refuses to be changed.** A granted request that does not lift its lock has no
effect on it, except that the node of its source may be deleted. -/
theorem effect_of_isLocked {r : Request} {reply : r.Reply} (hlocked : g.isLocked p = .ok true)
    (hr : g.perform r = .ok (reply, g')) (hlift : r ≠ .setLocked p false) :
    r.effect p (g.holding p) =
      { g.holding p with source := (g.source? p).filter (r ≠ .deleteNode ·.node) } := by
  cases r with
  | setAttribute q v =>
      obtain ⟨n, hn, hattr, -, -⟩ := perform_setAttribute.1 hr
      rw [Request.effect, if_neg (ne_of_notMem_locked hlocked hn hattr),
        filter_source_eq_self (by simp)]
      rfl
  | connect source q force =>
      obtain ⟨-, ⟨n, hn, hattr⟩, -, -⟩ := perform_connect.1 hr
      rw [Request.effect, if_neg (ne_of_notMem_locked hlocked hn hattr),
        filter_source_eq_self (by simp)]
      rfl
  | disconnect q =>
      obtain ⟨⟨n, hn, hattr⟩, -⟩ := perform_disconnect.1 hr
      rw [Request.effect, if_neg (ne_of_notMem_locked hlocked hn hattr),
        filter_source_eq_self (by simp)]
      rfl
  | setLocked q locked =>
      rw [Request.effect, filter_source_eq_self (by simp)]
      split
      · next hq =>
        -- The plug is locked once more.
        subst hq
        obtain rfl : locked = true := by simpa using hlift
        rw [holding, hlocked]
      · rfl
  | deleteNode name =>
      have hfilter : (fun s : Plug => s.node != name) =
          fun s => decide (Request.deleteNode name ≠ .deleteNode s.node) := by
        funext s
        rw [Bool.eq_iff_iff, bne_iff_ne, decide_eq_true_iff, ne_comm]
        simp
      rw [Request.effect, hfilter]
      rfl
  | _ =>
      rw [filter_source_eq_self (by simp)]
      rfl

/-- A node that is there can be deleted. -/
theorem deleteNode_ne_error {name : String} (hname : name ∈ g.nodes) (e : GraphError) :
    g.perform (.deleteNode name) ≠ .error e := by
  obtain ⟨n, hn⟩ := Option.isSome_iff_exists.1 (Std.ExtTreeMap.mem_iff_isSome_getElem?.1 hname)
  rw [perform_deleteNode.2 ⟨⟨n, hn⟩, rfl⟩]
  simp

/-- **A request and a locked plug.** Whether the request is granted or not, all that it can change
is the connection to the plug, by deleting the node of the source. -/
theorem holding_respond {r : Request} (hg : g.Reachable) (hlocked : g.isLocked p = .ok true)
    (hlift : r ≠ .setLocked p false) (hdelete : r ≠ .deleteNode p.node) :
    (host.respond g r).2.holding p =
      { g.holding p with source := (g.source? p).filter (r ≠ .deleteNode ·.node) } := by
  simp only [host_respond]
  cases hr : g.perform r with
  | ok out =>
      exact (holding_perform (node_mem_of_isLocked hlocked) hr hdelete).trans
        (effect_of_isLocked hlocked hr hlift)
  | error e =>
      rw [filter_source_eq_self]
      · rfl
      · -- The node of the source is there, so a request to delete it is not refused.
        intro s hs
        refine decide_eq_true fun heq => ?_
        subst heq
        exact deleteNode_ne_error (hg.wellFormed.source_mem p s hs) e hr

/-- A request leads to a reachable state, whether it is granted or not. -/
theorem Reachable.respond (hg : g.Reachable) (r : Request) : (host.respond g r).2.Reachable := by
  simp only [host_respond]
  cases hr : g.perform r with
  | ok out => exact hg.request hr
  | error e => exact hg

/-- Requests lead to reachable states. -/
theorem Reachable.afterRequests (hg : g.Reachable) (rs : List Request) :
    (g.afterRequests rs).Reachable := by
  induction rs generalizing g with
  | nil => exact hg
  | cons r rs ih => exact ih (hg.respond r)

/-- **Requests and a locked plug.** -/
theorem holding_afterRequests {rs : List Request} (hg : g.Reachable)
    (hlocked : g.isLocked p = .ok true) (hlift : .setLocked p false ∉ rs)
    (hdelete : .deleteNode p.node ∉ rs) :
    (g.afterRequests rs).holding p =
      { g.holding p with source := (g.source? p).filter (.deleteNode ·.node ∉ rs) } := by
  induction rs generalizing g with
  | nil =>
      rw [filter_source_eq_self (by simp)]
      rfl
  | cons r rs ih =>
      simp only [List.mem_cons, not_or] at hlift hdelete
      have hstep := holding_respond hg hlocked (Ne.symm hlift.1) (Ne.symm hdelete.1)
      have hlocked' : (host.respond g r).2.isLocked p = .ok true :=
        (congrArg Holding.locked hstep).trans hlocked
      have hsource' : (host.respond g r).2.source? p =
          (g.source? p).filter (r ≠ .deleteNode ·.node) :=
        congrArg Holding.source hstep
      refine (ih (hg.respond r) hlocked' hlift.2 hdelete.2).trans ?_
      -- The source stays if neither the first request nor a later one deletes its node.
      rw [hstep, hsource', Option.filter_filter]
      simp only [List.mem_cons, not_or, Bool.decide_and, eq_comm]

/-- **Locks protect.** Requests that neither lift the lock of a plug nor delete its node leave it
locked, leave what is stored there, and leave what is connected to it, unless they delete the node
that it is connected from. -/
theorem locks_protect (hg : g.Reachable) (hlocked : g.isLocked p = .ok true) (rs : List Request)
    (hlift : .setLocked p false ∉ rs) (hdelete : .deleteNode p.node ∉ rs) :
    (g.afterRequests rs).isLocked p = .ok true ∧
      (g.afterRequests rs).value? p = g.value? p ∧
      (g.afterRequests rs).source? p = (g.source? p).filter (.deleteNode ·.node ∉ rs) := by
  have hend := holding_afterRequests hg hlocked hlift hdelete
  exact ⟨(congrArg Holding.locked hend).trans hlocked, congrArg Holding.value hend,
    congrArg Holding.source hend⟩

/-- The lower bound of the second clamp. -/
def secondBound : Plug :=
  ⟨"clamp2", Clamp.min⟩

/-- A graph with two clamps, of which the first drives a bound of the second, which is locked. -/
def lockedClamps : Graph :=
  Graph.empty.afterRequests
    [.createNode (.primitive .clamp), .createNode (.primitive .clamp),
      .setAttribute secondBound (.double 2),
      .connect ⟨"clamp1", Clamp.output⟩ secondBound false, .setLocked secondBound true]

/-- Attempts on the locked bound: to write it, to disconnect it, and to drive it from elsewhere. -/
def lockAttempts : List Request :=
  [.setAttribute secondBound (.double 7), .disconnect secondBound,
    .connect ⟨"clamp2", Clamp.max⟩ secondBound true, .setLocked secondBound true,
    .setLocked ⟨"clamp2", Clamp.max⟩ false]

/-- The node of the source is deleted and another one is put in its place. -/
def sourceReplacement : List Request :=
  [.deleteNode "clamp1", .createNode (.primitive .clamp),
    .connect ⟨"clamp1", Clamp.output⟩ secondBound true]

/-- The attempts fail, and the bound loses its source only with the node of the source. -/
theorem locks_protect_lockedClamps :
    lockedClamps.isLocked secondBound = .ok true ∧
      lockedClamps.value? secondBound = some (.double 2) ∧
      lockedClamps.source? secondBound = some ⟨"clamp1", Clamp.output⟩ ∧
      (lockedClamps.afterRequests lockAttempts).isLocked secondBound = .ok true ∧
      (lockedClamps.afterRequests lockAttempts).value? secondBound = some (.double 2) ∧
      (lockedClamps.afterRequests lockAttempts).source? secondBound =
        some ⟨"clamp1", Clamp.output⟩ ∧
      (lockedClamps.afterRequests sourceReplacement).isLocked secondBound = .ok true ∧
      (lockedClamps.afterRequests sourceReplacement).source? secondBound = none := by
  have hg : lockedClamps.Reachable := Reachable.empty.afterRequests _
  have hlocked : lockedClamps.isLocked secondBound = .ok true :=
    toOption_eq_some_iff.1 (by decide +kernel)
  have hvalue : lockedClamps.value? secondBound = some (.double 2) := by decide +kernel
  have hsource : lockedClamps.source? secondBound = some ⟨"clamp1", Clamp.output⟩ := by
    decide +kernel
  obtain ⟨hlocked₁, hvalue₁, hsource₁⟩ :=
    locks_protect hg hlocked lockAttempts (by decide) (by decide)
  obtain ⟨hlocked₂, -, hsource₂⟩ :=
    locks_protect hg hlocked sourceReplacement (by decide) (by decide)
  rw [hvalue] at hvalue₁
  rw [hsource] at hsource₁ hsource₂
  exact ⟨hlocked, hvalue, hsource, hlocked₁, hvalue₁, hsource₁.trans (by decide), hlocked₂,
    hsource₂.trans (by decide)⟩

end Graph

end RigScript
