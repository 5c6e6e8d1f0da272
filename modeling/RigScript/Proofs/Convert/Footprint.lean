import RigScript.Proofs.Compile.Discipline
import RigScript.Proofs.Convert.Commit

/-!
# What a compilation leaves behind

A compilation may succeed, or fail at any request. Either way the scene that it started from is
still there: its nodes have their kinds and curves, its selection is the same, and of its plugs only
the targets of sentences may differ, which keep the kind of what they store. When a failed
compilation is rolled back no node is left over, and when a compilation succeeds its targets are
unlocked.

All of this follows from the discipline of sentences: a request that a sentence permits touches the
target or a node that was created, and the names of created nodes are new.

## Main definitions

* `RigScript.Graph.Locked`: a plug is locked
* `RigScript.Node.Resembles`: a node differs from another one at some attributes only
* `RigScript.Graph.Footprint`: a graph differs from another one by created nodes and targets

## Main results

* `RigScript.Graph.Footprint.perform`: a permitted request stays within the footprint
* `RigScript.Graph.Footprint.deleteNodes`: rolling back takes all created nodes away
* `RigScript.compileScript_footprint`: **the footprint of a compilation**
-/

namespace RigScript

/-! ### Nodes -/

/-- The node `m` **resembles** `n`: kind and curve are the same, and so are the attributes and locks
that are not assigned to. What is stored keeps its kind, and only numbers change or are added. -/
structure Node.Resembles (n : Node) (assigned : String → Prop) (m : Node) : Prop where
  kind_eq : m.kind = n.kind
  curve_eq : m.curve = n.curve
  value_eq : ∀ attr, ¬ assigned attr → m.attributes[attr]? = n.attributes[attr]?
  locked_iff : ∀ attr, ¬ assigned attr → (attr ∈ m.locked ↔ attr ∈ n.locked)
  kept : ∀ (attr : String) (v : Value), n.attributes[attr]? = some v →
    ∃ w, m.attributes[attr]? = some w ∧ w.kind = v.kind ∧ (v.kind.isScalar = false → w = v)
  added : ∀ (attr : String) (w : Value), n.attributes[attr]? = none →
    m.attributes[attr]? = some w → w.kind.isScalar = true

/-- A number is stored as a number, whatever was there. -/
theorem Value.isScalar_storedOver (old : Option Value) (x : Float) :
    (Value.storedOver old (.double x)).kind.isScalar = true := by
  unfold storedOver
  split
  · rfl
  · next heq => cases heq
  · rfl

/-- A number stored over a value that a sentence may assign to keeps the kind of the value. -/
theorem Value.kind_storedOver {v : Value} (h : v.kind.isScalar = true) (x : Float) :
    (Value.storedOver (some v) (.double x)).kind = v.kind := by
  cases v with
  | double y => rfl
  | doubleLinear y => rfl
  | _ => simp [Value.kind, AttrKind.isScalar] at h

namespace Node.Resembles

variable {n m : Node} {assigned : String → Prop} {attr : String}

theorem refl (n : Node) (assigned : String → Prop) : n.Resembles assigned n where
  kind_eq := rfl
  curve_eq := rfl
  value_eq _ _ := rfl
  locked_iff _ _ := Iff.rfl
  kept _ v hv := ⟨v, hv, rfl, fun _ => rfl⟩
  added _ w hnone hw := by simp [hnone] at hw

/-- A lock is lifted from an attribute that is assigned to. -/
theorem eraseLock (h : n.Resembles assigned m) (hattr : assigned attr) :
    n.Resembles assigned { m with locked := m.locked.erase attr } where
  kind_eq := h.kind_eq
  curve_eq := h.curve_eq
  value_eq := h.value_eq
  locked_iff a ha := by
    have hne : attr ≠ a := by
      rintro rfl
      exact ha hattr
    rw [← h.locked_iff a ha, Std.ExtTreeSet.mem_erase, ne_eq, Std.LawfulEqOrd.compare_eq_iff_eq]
    exact and_iff_right hne
  kept := h.kept
  added := h.added

/-- A number is written to an attribute that is assigned to and held a number before. -/
theorem write (h : n.Resembles assigned m) (hattr : assigned attr)
    (hscalar : ∀ v, n.attributes[attr]? = some v → v.kind.isScalar = true) (x : Float) :
    n.Resembles assigned { m with
      attributes := m.attributes.insert attr
        ((Value.double x).storedOver m.attributes[attr]?) } where
  kind_eq := h.kind_eq
  curve_eq := h.curve_eq
  value_eq a ha := by
    have hne : ¬ compare attr a = .eq := by
      rw [Std.LawfulEqOrd.compare_eq_iff_eq]
      rintro rfl
      exact ha hattr
    rw [Std.ExtTreeMap.getElem?_insert, if_neg hne, h.value_eq a ha]
  locked_iff := h.locked_iff
  kept a v hv := by
    obtain ⟨w, hw, hkind, hsame⟩ := h.kept a v hv
    by_cases hne : attr = a
    · subst hne
      have hv' := hscalar v hv
      refine ⟨_, Std.ExtTreeMap.getElem?_insert_self, ?_, fun hnot => ?_⟩
      · rw [hw, Value.kind_storedOver (hkind ▸ hv'), hkind]
      · rw [hv'] at hnot
        cases hnot
    · refine ⟨w, ?_, hkind, hsame⟩
      rw [Std.ExtTreeMap.getElem?_insert, if_neg, hw]
      rwa [Std.LawfulEqOrd.compare_eq_iff_eq]
  added a w hnone hw := by
    rw [Std.ExtTreeMap.getElem?_insert] at hw
    split at hw
    · obtain rfl := Option.some.inj hw
      exact Value.isScalar_storedOver _ x
    · exact h.added a w hnone hw

end Node.Resembles

/-! ### Locks -/

namespace Graph

variable {g g' : Graph} {p : Plug}

/-- A plug is **locked** when its node holds a lock on its attribute. -/
def Locked (g : Graph) (p : Plug) : Prop :=
  ∃ n, g.nodes[p.node]? = some n ∧ p.attr ∈ n.locked

/-- A node is replaced by one with no other locks. -/
theorem Locked.of_putNode {name : String} {m : Node} {journal : List Change}
    (hm : ∀ attr ∈ m.locked, g.Locked ⟨name, attr⟩)
    (h : Locked { g with nodes := g.nodes.insert name m, journal } p) : g.Locked p := by
  obtain ⟨n, hn, hlocked⟩ := h
  simp only [Std.ExtTreeMap.getElem?_insert, Std.LawfulEqOrd.compare_eq_iff_eq] at hn
  split at hn
  · next hname =>
    cases hn
    subst hname
    exact hm p.attr hlocked
  · exact ⟨n, hn, hlocked⟩

/-- **Only a request to lock a plug locks one.** -/
theorem Locked.of_perform {r : Request} {reply : r.Reply} (hr : g.perform r = .ok (reply, g'))
    (hne : ∀ q, r ≠ .setLocked q true) (h : g'.Locked p) : g.Locked p := by
  cases r with
  | createNode kind =>
      obtain ⟨-, rfl⟩ := perform_createNode.1 hr
      exact h.of_putNode fun attr hattr => by simp [Node.ofKind] at hattr
  | setAttribute q v =>
      obtain ⟨n, hn, -, -, rfl⟩ := perform_setAttribute.1 hr
      refine Locked.of_putNode (fun attr hattr => ?_) h
      exact ⟨n, (checkAttr_eq_ok_iff.1 hn).1, hattr⟩
  | setLocked q locked =>
      obtain ⟨n, hn, rfl⟩ := perform_setLocked.1 hr
      cases locked with
      | true => exact absurd rfl (hne q)
      | false =>
          refine Locked.of_putNode (fun attr hattr => ?_) h
          exact ⟨n, (checkAttr_eq_ok_iff.1 hn).1, (Std.ExtTreeSet.mem_erase.1 hattr).2⟩
  | createKeyframe curve key =>
      obtain ⟨n, hn, rfl⟩ := perform_createKeyframe.1 hr
      refine Locked.of_putNode (fun attr hattr => ?_) h
      exact ⟨n, (checkCurve_eq_ok_iff.1 hn).1, hattr⟩
  | setExtrapolation curve pre post =>
      obtain ⟨n, hn, rfl⟩ := perform_setExtrapolation.1 hr
      refine Locked.of_putNode (fun attr hattr => ?_) h
      exact ⟨n, (checkCurve_eq_ok_iff.1 hn).1, hattr⟩
  | deleteNode name =>
      obtain ⟨-, rfl⟩ := perform_deleteNode.1 hr
      obtain ⟨n, hn, hlocked⟩ := h
      rw [Std.ExtTreeMap.getElem?_erase] at hn
      split at hn
      · cases hn
      · exact ⟨n, hn, hlocked⟩
  | connect source dest force =>
      obtain ⟨-, -, -, rfl⟩ := perform_connect.1 hr
      exact h
  | disconnect dest =>
      obtain ⟨-, rfl⟩ := perform_disconnect.1 hr
      exact h
  | clearSelection =>
      obtain rfl := perform_clearSelection.1 hr
      exact h
  | getAttribute q | isLocked q | listConstructs q | listIncoming q =>
      obtain rfl := eq_of_asks rfl hr
      exact h

/-- A plug that is answered to be unlocked is. -/
theorem not_locked_of_isLocked (h : g.isLocked p = .ok false) : ¬ g.Locked p := by
  rintro ⟨n, hn, hlocked⟩
  simp only [isLocked, bind_eq_ok_iff] at h
  obtain ⟨m, hm, h⟩ := h
  obtain rfl : n = m := Option.some.inj (hn.symm.trans (checkAttr_eq_ok_iff.1 hm).1)
  rw [← Std.ExtTreeSet.contains_iff_mem] at hlocked
  rw [hlocked] at h
  cases h

/-- A plug is unlocked after its lock was lifted. -/
theorem not_locked_of_setLocked (h : g.perform (.setLocked p false) = .ok ((), g')) :
    ¬ g'.Locked p := by
  obtain ⟨n, hn, rfl⟩ := perform_setLocked.1 h
  rintro ⟨m, hm, hlocked⟩
  rw [Std.ExtTreeMap.getElem?_insert_self] at hm
  obtain rfl := Option.some.inj hm
  exact (Std.ExtTreeSet.mem_erase.1 hlocked).1 Std.ReflCmp.compare_self

/-! ### Footprints -/

/-- The graph `g` is `base` with the **footprint** of a compilation: the nodes `created` are new,
and of the plugs that were there only `targets` may be unlocked, written and connected. -/
structure Footprint (base : Graph) (targets : Plug → Prop) (created : List String) (g : Graph) :
    Prop where
  mem_nodes_iff : ∀ name, name ∈ g.nodes ↔ name ∈ base.nodes ∨ name ∈ created
  notMem_base : ∀ name ∈ created, name ∉ base.nodes
  nodup : created.Nodup
  selection_eq : g.selection = base.selection
  resembles : ∀ (name : String) (n : Node), base.nodes[name]? = some n →
    ∃ m, g.nodes[name]? = some m ∧ n.Resembles (fun attr => targets ⟨name, attr⟩) m
  source?_eq : ∀ p : Plug, p.node ∈ base.nodes → ¬ targets p → g.source? p = base.source? p

namespace Footprint

variable {base : Graph} {targets : Plug → Prop} {created : List String} {name : String}

theorem refl (g : Graph) (targets : Plug → Prop) : g.Footprint targets [] g where
  mem_nodes_iff name := by simp
  notMem_base name h := by simp at h
  nodup := .nil
  selection_eq := rfl
  resembles name n hn := ⟨n, hn, .refl n _⟩
  source?_eq _ _ _ := rfl

/-- A node that was there resembles what it was. -/
theorem resembles_of_eq (h : base.Footprint targets created g) {n m : Node}
    (hn : base.nodes[name]? = some n) (hm : g.nodes[name]? = some m) :
    n.Resembles (fun attr => targets ⟨name, attr⟩) m := by
  obtain ⟨m', hm', hsim⟩ := h.resembles name n hn
  obtain rfl : m = m' := Option.some.inj (hm.symm.trans hm')
  exact hsim

/-- A node is replaced. If it was there at the start, what replaces it has to resemble it. -/
theorem putNode (h : base.Footprint targets created g) (hname : name ∈ g.nodes) {m : Node}
    (hm : ∀ n, base.nodes[name]? = some n → n.Resembles (fun attr => targets ⟨name, attr⟩) m)
    (journal : List Change) :
    base.Footprint targets created { g with nodes := g.nodes.insert name m, journal } where
  mem_nodes_iff name' := by
    rw [mem_insert_node, ← h.mem_nodes_iff, or_iff_right_of_imp]
    rintro rfl
    exact hname
  notMem_base := h.notMem_base
  nodup := h.nodup
  selection_eq := h.selection_eq
  resembles name' n hn := by
    simp only [Std.ExtTreeMap.getElem?_insert, Std.LawfulEqOrd.compare_eq_iff_eq]
    split
    · next heq =>
      subst heq
      exact ⟨m, rfl, hm n hn⟩
    · exact h.resembles name' n hn
  source?_eq := h.source?_eq

/-- A created node may be replaced by any other. -/
theorem putCreated (h : base.Footprint targets created g) (hname : name ∈ created) (m : Node)
    (journal : List Change) :
    base.Footprint targets created { g with nodes := g.nodes.insert name m, journal } :=
  h.putNode ((h.mem_nodes_iff name).2 (.inr hname))
    (fun _ hn => absurd (mem_nodes_of_eq_some hn) (h.notMem_base name hname)) journal

/-- A node is created under a free name. -/
theorem addCreated (h : base.Footprint targets created g) (hname : name ∉ g.nodes) (m : Node)
    (journal : List Change) :
    base.Footprint targets (created ++ [name])
      { g with nodes := g.nodes.insert name m, journal } where
  mem_nodes_iff name' := by
    rw [mem_insert_node, h.mem_nodes_iff]
    grind
  notMem_base name' hname' hbase := by
    obtain hold | rfl : name' ∈ created ∨ name' = name := by simpa using hname'
    · exact h.notMem_base name' hold hbase
    · exact hname ((h.mem_nodes_iff name').2 (.inl hbase))
  nodup := by
    have hnew : name ∉ created := fun hmem => hname ((h.mem_nodes_iff name).2 (.inr hmem))
    exact List.nodup_append.2 ⟨h.nodup, by simp, by grind⟩
  selection_eq := h.selection_eq
  resembles name' n hn := by
    have hne : name ≠ name' := by
      rintro rfl
      exact hname ((h.mem_nodes_iff name).2 (.inl (mem_nodes_of_eq_some hn)))
    simp only [Std.ExtTreeMap.getElem?_insert, Std.LawfulEqOrd.compare_eq_iff_eq, if_neg hne]
    exact h.resembles name' n hn
  source?_eq := h.source?_eq

/-- The connections are changed at a target or on a created node. -/
theorem setConnections (h : base.Footprint targets created g) {dest : Plug}
    (hdest : dest.node ∈ base.nodes → targets dest) {connections : Std.ExtTreeMap Plug Plug}
    (hconn : ∀ p, p ≠ dest → connections[p]? = g.source? p) (journal : List Change) :
    base.Footprint targets created { g with connections, journal } where
  mem_nodes_iff := h.mem_nodes_iff
  notMem_base := h.notMem_base
  nodup := h.nodup
  selection_eq := h.selection_eq
  resembles := h.resembles
  source?_eq p hp hnot := by
    refine (hconn p ?_).trans (h.source?_eq p hp hnot)
    rintro rfl
    exact hnot (hdest hp)

/-- A connection is made to a target or to a created node. -/
theorem putConnection (h : base.Footprint targets created g) {dest : Plug}
    (hdest : dest.node ∈ base.nodes → targets dest) (source : Plug) (journal : List Change) :
    base.Footprint targets created
      { g with connections := g.connections.insert dest source, journal } := by
  refine h.setConnections hdest (fun p hne => ?_) journal
  rw [Std.ExtTreeMap.getElem?_insert, if_neg]
  · rfl
  · rw [Std.LawfulEqOrd.compare_eq_iff_eq]
    exact hne.symm

/-- The connection to a target is removed. -/
theorem eraseConnection (h : base.Footprint targets created g) {dest : Plug}
    (hdest : dest.node ∈ base.nodes → targets dest) (journal : List Change) :
    base.Footprint targets created
      { g with connections := g.connections.erase dest, journal } := by
  refine h.setConnections hdest (fun p hne => ?_) journal
  rw [Std.ExtTreeMap.getElem?_erase, if_neg]
  · rfl
  · rw [Std.LawfulEqOrd.compare_eq_iff_eq]
    exact hne.symm

/-! ### Requests -/

section Perform

variable {s : Sentence} {target : Plug} {earlier : List String} {past : List Event} {r : Request}
  {reply : r.Reply}

/-- Furnishing created nodes stays within the footprint. -/
theorem furnish (h : base.Footprint targets created g) (hr : r.Furnishes (· ∈ created))
    (hperform : g.perform r = .ok (reply, g')) : base.Footprint targets created g' := by
  cases r with
  | setAttribute p v =>
      obtain ⟨n, -, -, -, rfl⟩ := perform_setAttribute.1 hperform
      exact h.putCreated hr _ _
  | connect source dest force =>
      obtain ⟨-, -, -, rfl⟩ := perform_connect.1 hperform
      exact h.putConnection (fun hbase => absurd hbase (h.notMem_base _ hr.2)) source _
  | createKeyframe curve key =>
      obtain ⟨n, -, rfl⟩ := perform_createKeyframe.1 hperform
      exact h.putCreated hr _ _
  | setExtrapolation curve pre post =>
      obtain ⟨n, -, rfl⟩ := perform_setExtrapolation.1 hperform
      exact h.putCreated hr _ _
  | _ => exact hr.elim

/-- **A permitted request stays within the footprint**, as long as only a target that stores a
number is read as one. -/
theorem perform (h : base.Footprint targets (earlier ++ createdIn past) g)
    (hr : s.Permits target earlier past r) (htarget : targets target)
    (hread : ReadAsScalar target past → ∀ v, base.value? target = some v → v.kind.isScalar = true)
    (hperform : g.perform r = .ok (reply, g')) :
    base.Footprint targets (earlier ++ createdIn (past ++ [⟨r, .ok reply⟩])) g' := by
  have hsame : (⟨r, .ok reply⟩ : Event).created? = none →
      earlier ++ createdIn (past ++ [⟨r, .ok reply⟩]) = earlier ++ createdIn past := by
    intro hnone
    simp [createdIn, hnone]
  cases hr with
  | create kind =>
      obtain ⟨rfl, rfl⟩ := perform_createNode.1 hperform
      simpa [createdIn, Event.created?] using h.addCreated (g.freshName_notMem kind) _ _
  | furnish hfurnish =>
      rw [hsame]
      · exact h.furnish hfurnish hperform
      · cases r with
        | createNode kind => exact hfurnish.elim
        | _ => rfl
  | read =>
      rw [hsame rfl]
      obtain ⟨-, rfl⟩ := perform_getAttribute.1 hperform
      exact h
  | askLock =>
      rw [hsame rfl]
      obtain ⟨-, rfl⟩ := perform_isLocked.1 hperform
      exact h
  | unlock _ =>
      rw [hsame rfl]
      obtain ⟨n, hn, rfl⟩ := perform_setLocked.1 hperform
      obtain ⟨hnode, -⟩ := checkAttr_eq_ok_iff.1 hn
      refine h.putNode (mem_nodes_of_eq_some hnode) (fun n₀ hn₀ => ?_) _
      exact (h.resembles_of_eq hn₀ hnode).eraseLock htarget
  | disconnect _ =>
      rw [hsame rfl]
      obtain ⟨-, rfl⟩ := perform_disconnect.1 hperform
      exact h.eraseConnection (fun _ => htarget) _
  | @write x hscalar _ _ =>
      rw [hsame rfl]
      obtain ⟨n, hn, -, -, rfl⟩ := perform_setAttribute.1 hperform
      obtain ⟨hnode, -⟩ := checkAttr_eq_ok_iff.1 hn
      refine h.putNode (mem_nodes_of_eq_some hnode) (fun n₀ hn₀ => ?_) _
      refine (h.resembles_of_eq hn₀ hnode).write htarget (fun v hv => hread hscalar v ?_) x
      rw [value?, hn₀, Option.bind_some, hv]
  | wire source _ =>
      rw [hsame rfl]
      obtain ⟨-, -, -, rfl⟩ := perform_connect.1 hperform
      exact h.putConnection (fun _ => htarget) source _

end Perform

/-! ### Rolling back -/

/-- The last created node can be deleted, which takes no connection of other nodes away. -/
theorem deleteLast (h : base.Footprint targets (created ++ [name]) g) (hbase : base.WellFormed) :
    ∃ g', g.perform (.deleteNode name) = .ok ((), g') ∧ base.Footprint targets created g' := by
  have hmem : name ∈ g.nodes := (h.mem_nodes_iff name).2 (by simp)
  have hnew : name ∉ base.nodes := h.notMem_base name (by simp)
  obtain ⟨hcreated, -, hlast⟩ := List.nodup_append.1 h.nodup
  obtain ⟨n, hn⟩ := exists_node_of_mem hmem
  obtain ⟨g', hg'⟩ : ∃ g', g.perform (.deleteNode name) = .ok ((), g') :=
    ⟨_, perform_deleteNode.2 ⟨⟨n, hn⟩, rfl⟩⟩
  refine ⟨g', hg', ?_, fun name' h' => h.notMem_base name' (by simp [h']), hcreated, ?_, ?_, ?_⟩
  · intro name'
    obtain ⟨-, rfl⟩ := perform_deleteNode.1 hg'
    rw [Std.ExtTreeMap.mem_erase, h.mem_nodes_iff, ne_eq, Std.LawfulEqOrd.compare_eq_iff_eq]
    grind
  · obtain ⟨-, rfl⟩ := perform_deleteNode.1 hg'
    simp only [h.selection_eq, List.filter_eq_self, bne_iff_ne]
    rintro name' hsel rfl
    exact hnew (hbase.selection_mem _ hsel)
  · intro name' n₀ hn₀
    rw [nodes_deleteNode hg']
    · exact h.resembles name' n₀ hn₀
    · rintro rfl
      exact hnew (mem_nodes_of_eq_some hn₀)
  · intro p hp hnot
    rw [source?_deleteNode hg', h.source?_eq p hp hnot]
    cases hs : base.source? p with
    | none => rfl
    | some source =>
        have hdest : p.node ≠ name := fun heq => hnew (heq ▸ hp)
        have hsource : source.node ≠ name := fun heq => hnew (heq ▸ hbase.source_mem p source hs)
        rw [Option.filter_some, if_pos (by simp [hdest, hsource])]

/-- **Rolling back takes all created nodes away**: no deletion is refused. -/
theorem deleteNodes (hbase : base.WellFormed) (names : List String) {g : Graph}
    (h : base.Footprint targets names.reverse g) :
    base.Footprint targets [] ((RigScript.deleteNodes names).run Graph.host g).2 := by
  induction names generalizing g with
  | nil => exact h
  | cons name names ih =>
      rw [List.reverse_cons] at h
      obtain ⟨g', hg', hrest⟩ := h.deleteLast hbase
      have hrespond := host_respond_eq_ok.2 hg'
      simp only [RigScript.deleteNodes, Dialogue.send, Dialogue.bind_eq, Dialogue.run_bind,
        hrespond, Dialogue.run]
      exact ih hrest

end Footprint

/-! ### Sentences -/

/-- The state while a sentence is compiled: the footprint so far, what reading the target told about
it, and which locks there are. -/
structure Underway (base : Graph) (targets : Plug → Prop) (earlier : List String) (start : Graph)
    (target : Plug) (past : List Event) (g : Graph) : Prop where
  footprint : base.Footprint targets (earlier ++ createdIn past) g
  read : ∀ v, past.head? = some ⟨.getAttribute target, .ok v⟩ →
    ∀ w, base.value? target = some w → w.kind = v.kind
  locks : ∀ p, g.Locked p → start.Locked p
  unlocked : KnownUnlocked target past → ¬ g.Locked target

namespace Underway

variable {base start : Graph} {targets : Plug → Prop} {earlier : List String} {target : Plug}
  {past : List Event} {s : Sentence} {r : Request}

/-- What is read at a plug of the base is of the kind that was stored there. -/
theorem kind_eq_of_getAttribute {created : List String} {v w : Value}
    (h : base.Footprint targets created g) (hv : g.getAttribute p = .ok v)
    (hw : base.value? p = some w) : w.kind = v.kind := by
  obtain ⟨n, hn, hattr⟩ := Option.bind_eq_some_iff.1 hw
  obtain ⟨m, hm, rfl⟩ := getAttribute_eq_ok_iff.1 hv
  have hsim := h.resembles_of_eq hn (checkAttr_eq_ok_iff.1 hm).1
  obtain ⟨w', hw', hkind, -⟩ := hsim.kept _ w hattr
  rw [hw', Option.getD_some, hkind]

/-- A permitted request that is granted. -/
theorem perform (h : Underway base targets earlier start target past g)
    (hr : s.Permits target earlier past r) (htarget : targets target) {reply : r.Reply}
    (hperform : g.perform r = .ok (reply, g')) :
    Underway base targets earlier start target (past ++ [⟨r, .ok reply⟩]) g' := by
  have hlocks : ∀ p, g'.Locked p → g.Locked p := by
    refine fun p => Locked.of_perform hperform fun q => ?_
    rintro rfl
    cases hr with
    | furnish hfurnish => exact hfurnish
  refine ⟨h.footprint.perform hr htarget ?_ hperform, fun v hv w hw => ?_,
    fun p hp => h.locks p (hlocks p hp), ?_⟩
  · rintro ⟨v, hscalar, hhead⟩ w hw
    rw [h.read v hhead w hw, hscalar]
  · cases past with
    | nil =>
        obtain ⟨rfl, hreply⟩ := Event.mk.inj (Option.some.inj hv)
        obtain rfl := Except.ok.inj (eq_of_heq hreply)
        exact kind_eq_of_getAttribute h.footprint (perform_getAttribute.1 hperform).1 hw
    | cons e past => exact h.read v hv w hw
  · intro hknown
    obtain hold | hask | hlift := hknown.of_concat
    · exact fun hlocked => h.unlocked hold (hlocks _ hlocked)
    · obtain ⟨rfl, hreply⟩ := Event.mk.inj hask
      obtain rfl := Except.ok.inj (eq_of_heq hreply)
      exact fun hlocked =>
        not_locked_of_isLocked (perform_isLocked.1 hperform).1 (hlocks _ hlocked)
    · obtain ⟨rfl, -⟩ := Event.mk.inj hlift
      exact not_locked_of_setLocked hperform

/-- A request that is refused. -/
theorem refuse (h : Underway base targets earlier start target past g) (r : Request)
    (e : GraphError) :
    Underway base targets earlier start target (past ++ [⟨r, .error e⟩]) g where
  footprint := by
    have hnone : (⟨r, .error e⟩ : Event).created? = none := by cases r <;> rfl
    simpa [createdIn, hnone] using h.footprint
  read v hv w hw := by
    cases past with
    | nil =>
        obtain ⟨rfl, hreply⟩ := Event.mk.inj (Option.some.inj hv)
        cases hreply
    | cons e past => exact h.read v hv w hw
  locks := h.locks
  unlocked hknown := by
    obtain hold | hask | hlift := hknown.of_concat
    · exact h.unlocked hold
    · obtain ⟨rfl, hreply⟩ := Event.mk.inj hask
      cases hreply
    · obtain ⟨rfl, hreply⟩ := Event.mk.inj hlift
      cases hreply

/-- A permitted request, granted or not. -/
theorem respond (h : Underway base targets earlier start target past g)
    (hr : s.Permits target earlier past r) (htarget : targets target) :
    Underway base targets earlier start target (past ++ [⟨r, (host.respond g r).1⟩])
      (host.respond g r).2 := by
  simp only [host_respond]
  cases hperform : g.perform r with
  | error e => exact h.refuse r e
  | ok out => exact h.perform hr htarget hperform

end Underway

end Graph

/-! ### Scripts -/

/-- The plugs that a script assigns to on behalf of a construct: those that the targets of its
sentences stand for. -/
def Context.Assigns (c : Context) (ss : List Sentence) (p : Plug) : Prop :=
  ∃ s ∈ ss, c.resolve s.target = .ok p

@[simp] theorem Context.not_assigns_nil (c : Context) (p : Plug) : ¬ c.Assigns [] p := by
  simp [Assigns]

@[simp] theorem Context.assigns_cons (c : Context) (s : Sentence) (ss : List Sentence) (p : Plug) :
    c.Assigns (s :: ss) p ↔ c.resolve s.target = .ok p ∨ c.Assigns ss p := by
  simp [Assigns]

namespace Build

variable {g base : Graph} {c : Context} {targets : Plug → Prop}

/-- What holds after sentences were compiled, whether they failed or not: the graph has the
footprint of the nodes remembered, and no plug was locked. After a success, what was assigned to is
unlocked. -/
structure Leaves (base : Graph) (targets : Plug → Prop) (g : Graph) (assigned : Plug → Prop)
    (out : (Except ConvertError Unit × List String) × Graph) : Prop where
  footprint : base.Footprint targets out.1.2 out.2
  locks : ∀ p, out.2.Locked p → g.Locked p
  unlocked : out.1.1 = .ok () → ∀ p, assigned p → ¬ out.2.Locked p

/-- **The footprint of a sentence.** -/
theorem leaves_sentence {s : Sentence} {earlier : List String}
    (h : base.Footprint targets earlier g) (hs : ∀ p, c.resolve s.target = .ok p → targets p) :
    Leaves base targets g (fun p => c.resolve s.target = .ok p)
      (((sentence c s).run.run earlier).run Graph.host g) := by
  cases htarget : c.resolve s.target with
  | error fault =>
      rw [sentence_of_error htarget]
      refine ⟨h, fun _ hp => hp, ?_⟩
      rintro - p ⟨⟩
  | ok target =>
      have hobeys : (sentence c s).Obeys (s.Permits target earlier) earlier [] fun now _ =>
          KnownUnlocked target now := obeys_sentence htarget
      rw [Obeys, createdIn_nil, List.append_nil] at hobeys
      have hstart : Graph.Underway base targets earlier g target [] g :=
        ⟨by simpa using h, fun v hv => by simp at hv, fun _ hp => hp, by simp [KnownUnlocked]⟩
      have hrun : Graph.Underway base targets earlier g target
          ([] ++ ((sentence c s).run.run earlier).trace Graph.host g)
          (((sentence c s).run.run earlier).run Graph.host g).2 :=
        hobeys.invariant (fun past r g' hr hg' => hg'.respond hr (hs target htarget)) hstart
      obtain ⟨-, hnames, hknown⟩ := hobeys.trace Graph.host g
      refine ⟨hnames ▸ hrun.footprint, hrun.locks, fun hok p hp => ?_⟩
      obtain rfl := Except.ok.inj hp
      exact hrun.unlocked (hknown () hok)

/-- **The footprint of sentences**, whichever of them fails. When none does, all targets are
unlocked: the later sentences lock nothing again. -/
theorem leaves_sentences (ss : List Sentence) {g : Graph} {earlier : List String}
    (h : base.Footprint targets earlier g) (hss : ∀ p, c.Assigns ss p → targets p) :
    Leaves base targets g (c.Assigns ss)
      (((sentences c ss).run.run earlier).run Graph.host g) := by
  induction ss generalizing g earlier with
  | nil => exact ⟨h, fun _ hp => hp, fun _ p hp => absurd hp (c.not_assigns_nil p)⟩
  | cons s ss ih =>
      simp only [Context.assigns_cons] at hss
      have hfirst : Leaves base targets g (fun p => c.resolve s.target = .ok p) _ :=
        leaves_sentence h fun p hp => hss p (.inl hp)
      simp only [sentences, ExceptT.run_bind, StateT.run_bind, Dialogue.bind_eq, Dialogue.run_bind]
      generalize ((sentence c s).run.run earlier).run Graph.host g = out at hfirst ⊢
      obtain ⟨⟨outcome, names⟩, g₁⟩ := out
      cases outcome with
      | error e =>
          refine ⟨hfirst.footprint, hfirst.locks, ?_⟩
          rintro ⟨⟩
      | ok a =>
          have hrest := ih hfirst.footprint fun p hp => hss p (.inr hp)
          refine ⟨hrest.footprint, fun p hp => hfirst.locks p (hrest.locks p hp),
            fun hok p hp => ?_⟩
          obtain hhead | htail := (c.assigns_cons s ss p).1 hp
          · exact fun hlocked => hfirst.unlocked rfl p hhead (hrest.locks p hlocked)
          · exact hrest.unlocked hok p htail

/-- A program without choices is its sentences, and any other one fails at once. -/
theorem leaves_program (c : Context) (p : Program) (g : Graph) :
    Leaves g (c.Assigns (p.sentences?.getD [])) g (c.Assigns (p.sentences?.getD []))
      (((program c p).run.run []).run Graph.host g) := by
  unfold program
  split
  · refine ⟨.refl g _, fun _ hq => hq, ?_⟩
    rintro ⟨⟩
  · next ss hss =>
    rw [hss]
    exact leaves_sentences ss (.refl g _) fun _ hq => hq

end Build

/-- What a unit that was compiled leaves behind in the graph `g` that it started from. -/
inductive Aftermath (c : Context) (ss : List Sentence) (g : Graph) :
    Except ConvertError (List String) × Graph → Prop
  /-- After a success no target is locked. -/
  | ok {created : List String} {g' : Graph} : g.Footprint (c.Assigns ss) created g' →
      (∀ p, c.Assigns ss p → ¬ g'.Locked p) → Aftermath c ss g (.ok created, g')
  /-- After a failure that is rolled back no created node is left. -/
  | error {created : List String} {g' : Graph} (e : ConvertError) :
      g.Footprint (c.Assigns ss) created g' →
      (c.options.rollback = .failedConstruct → created = []) → Aftermath c ss g (.error e, g')

variable {g : Graph} (c : Context)

theorem aftermath_compileProgram (hg : g.WellFormed) (p : Program) :
    Aftermath c (p.sentences?.getD []) g ((compileProgram c p).run.run Graph.host g) := by
  have hleaves := Build.leaves_program c p g
  simp only [compileProgram, ExceptT.run_mk, Build.dialogue, Dialogue.bind_eq, Dialogue.run_bind]
  generalize ((Build.program c p).run.run []).run Graph.host g = out at hleaves ⊢
  obtain ⟨⟨outcome, created⟩, g₁⟩ := out
  obtain ⟨hfoot, -, hunlocked⟩ := hleaves
  cases outcome with
  | ok a => exact .ok hfoot (hunlocked rfl)
  | error e =>
      simp only [Dialogue.run_bind, Dialogue.pure_eq, Dialogue.run]
      cases hpolicy : c.options.rollback with
      | keepNodes =>
          refine .error e hfoot fun hback => ?_
          rw [hpolicy] at hback
          cases hback
      | failedConstruct =>
          refine .error e (Graph.Footprint.deleteNodes hg created.reverse ?_) fun _ => rfl
          rwa [List.reverse_reverse]

theorem aftermath_compileNodes (hg : g.WellFormed) (script : String) :
    Aftermath c (scriptSentences script) g ((compileNodes c script).run.run Graph.host g) := by
  unfold compileNodes scriptSentences
  split
  · exact .error _ (.refl g _) fun _ => rfl
  · next p hparse =>
    rw [hparse]
    exact aftermath_compileProgram c hg p

/-- Counting the nodes afterwards changes nothing. -/
theorem run_compileScript (script : String) {σ : Type} (host : Host σ) (st : σ) :
    (compileScript c script).run.run host st =
      (((compileNodes c script).run.run host st).1.map List.length,
        ((compileNodes c script).run.run host st).2) := by
  simp only [compileScript, ExceptT.run_bind, Dialogue.bind_eq, Dialogue.run_bind]
  obtain ⟨outcome, st'⟩ := (compileNodes c script).run.run host st
  cases outcome <;> rfl

namespace Graph.Footprint

variable {base : Graph} {targets : Plug → Prop} {created : List String} {name : String} {p : Plug}

/-- The nodes of the base are kept with their kinds and curves. -/
theorem kept_node (h : base.Footprint targets created g) (hname : name ∈ base.nodes) :
    name ∈ g.nodes ∧ g.kind? name = base.kind? name ∧ g.curve? name = base.curve? name := by
  obtain ⟨n, hn⟩ := exists_node_of_mem hname
  obtain ⟨m, hm, hsim⟩ := h.resembles name n hn
  refine ⟨mem_nodes_of_eq_some hm, ?_, ?_⟩
  · rw [kind?, kind?, hm, hn, Option.map_some, Option.map_some, hsim.kind_eq]
  · rw [curve?, curve?, hm, hn, Option.map_some, Option.map_some, hsim.curve_eq]

/-- The plugs of the base that are no targets are left alone. -/
theorem kept_plug (h : base.Footprint targets created g) (hp : p.node ∈ base.nodes)
    (hnot : ¬ targets p) :
    g.value? p = base.value? p ∧ (g.Locked p ↔ base.Locked p) ∧
      g.source? p = base.source? p := by
  obtain ⟨n, hn⟩ := exists_node_of_mem hp
  obtain ⟨m, hm, hsim⟩ := h.resembles p.node n hn
  refine ⟨?_, ?_, h.source?_eq p hp hnot⟩
  · rw [value?, value?, hm, hn, Option.bind_some, Option.bind_some, hsim.value_eq p.attr hnot]
  · simp only [Locked, hm, hn, Option.some.injEq, exists_eq_left']
    exact hsim.locked_iff p.attr hnot

/-- What the base stores keeps its kind, and it stays the same unless it is a number. -/
theorem kept_value (h : base.Footprint targets created g) {v : Value}
    (hv : base.value? p = some v) :
    ∃ w, g.value? p = some w ∧ w.kind = v.kind ∧ (v.kind.isScalar = false → w = v) := by
  obtain ⟨n, hn, hattr⟩ := Option.bind_eq_some_iff.1 hv
  obtain ⟨m, hm, hsim⟩ := h.resembles p.node n hn
  obtain ⟨w, hw, hkind, hsame⟩ := hsim.kept p.attr v hattr
  exact ⟨w, by rw [value?, hm, Option.bind_some, hw], hkind, hsame⟩

/-- What is stored in the end and is not a number was stored by the base. -/
theorem value?_eq_some_of_not_isScalar (h : base.Footprint targets created g)
    (hp : p.node ∈ base.nodes) {v : Value} (hv : g.value? p = some v)
    (hnot : v.kind.isScalar = false) : base.value? p = some v := by
  obtain ⟨n, hn⟩ := exists_node_of_mem hp
  obtain ⟨m, hm, hsim⟩ := h.resembles p.node n hn
  rw [value?, hm, Option.bind_some] at hv
  rw [value?, hn, Option.bind_some]
  cases hattr : n.attributes[p.attr]? with
  | none => simp [hsim.added p.attr v hattr hv] at hnot
  | some w =>
      obtain ⟨w', hw', hkind, hsame⟩ := hsim.kept p.attr w hattr
      obtain rfl : v = w' := Option.some.inj (hv.symm.trans hw')
      rw [hsame (hkind ▸ hnot)]

end Graph.Footprint

/-- **The footprint of a compilation**, whether it succeeds or fails. A script is compiled in a
reachable graph.

* All nodes are still there with their kinds and curves, and the selection is the same.
* A plug that the script does not assign to has the same value, lock and incoming connection.
* What is stored keeps its kind, and what is not a number stays the same.
* If it fails and is rolled back, there are the same nodes, and connections join only these.
* If it succeeds, the plugs that it assigns to are unlocked. -/
theorem compileScript_footprint (hg : g.Reachable) (script : String) :
    ∃ outcome g', (compileScript c script).run.run Graph.host g = (outcome, g') ∧
      (∀ name ∈ g.nodes,
        name ∈ g'.nodes ∧ g'.kind? name = g.kind? name ∧ g'.curve? name = g.curve? name) ∧
      g'.selection = g.selection ∧
      (∀ p : Plug, p.node ∈ g.nodes → ¬ c.Assigns (scriptSentences script) p →
        g'.value? p = g.value? p ∧ (g'.Locked p ↔ g.Locked p) ∧ g'.source? p = g.source? p) ∧
      (∀ p v, g.value? p = some v →
        ∃ w, g'.value? p = some w ∧ w.kind = v.kind ∧ (v.kind.isScalar = false → w = v)) ∧
      (∀ e, outcome = .error e → c.options.rollback = .failedConstruct →
        (∀ name, name ∈ g'.nodes ↔ name ∈ g.nodes) ∧
        ∀ dest source, g'.source? dest = some source →
          dest.node ∈ g.nodes ∧ source.node ∈ g.nodes) ∧
      ∀ n, outcome = .ok n → ∀ p, c.Assigns (scriptSentences script) p → ¬ g'.Locked p := by
  have hafter := aftermath_compileNodes c hg.wellFormed script
  have hwell : ((compileNodes c script).run.run Graph.host g).2.WellFormed :=
    Graph.run_preserves (fun h hr => h.perform hr) _ hg.wellFormed
  refine ⟨_, _, run_compileScript c script Graph.host g, ?_⟩
  generalize (compileNodes c script).run.run Graph.host g = out at hafter hwell
  cases hafter with
  | @ok created g' hfoot hunlocked =>
      refine ⟨fun _ => hfoot.kept_node, hfoot.selection_eq, fun _ => hfoot.kept_plug,
        fun _ _ => hfoot.kept_value, ?_, fun _ _ => hunlocked⟩
      rintro e ⟨⟩
  | @error created g' e hfoot hcreated =>
      refine ⟨fun _ => hfoot.kept_node, hfoot.selection_eq, fun _ => hfoot.kept_plug,
        fun _ _ => hfoot.kept_value, fun _ _ hpolicy => ?_, by rintro n ⟨⟩⟩
      obtain rfl := hcreated hpolicy
      have hnames : ∀ name, name ∈ g'.nodes ↔ name ∈ g.nodes := by
        simpa using hfoot.mem_nodes_iff
      refine ⟨hnames, fun dest source hs => ?_⟩
      exact ⟨(hnames _).1 (hwell.dest_mem dest source hs),
        (hnames _).1 (hwell.source_mem dest source hs)⟩

/-- The scene of a construct that doubles its input, with a locked target. -/
def Graph.lockedDoubling : Graph :=
  (doubling.lock ⟨"out", "ty"⟩).toOption.getD doubling

theorem Graph.reachable_lockedDoubling : lockedDoubling.Reachable :=
  reachable_doubling.getD reachable_doubling.lock

/-- The first sentence lifts the lock and is compiled to a node, and the second one has no target.
The node is gone again, and the input and the script of the construct are as they were. -/
theorem compileScript_footprint_lockedDoubling :
    Graph.lockedDoubling.Reachable ∧
    Graph.lockedDoubling.isLocked ⟨"out", "ty"⟩ = .ok true ∧
    ∃ e g', (compileScript ⟨"e", {}⟩ "out.ty = .I[0] * 2; out.tz = 1;").run.run Graph.host
        Graph.lockedDoubling = (.error e, g') ∧
      (∀ name, name ∈ g'.nodes ↔ name ∈ Graph.lockedDoubling.nodes) ∧
      g'.source? ⟨"e", "input[0]"⟩ = some ⟨"ctrl", "tx"⟩ ∧
      g'.value? ⟨"e", "expression"⟩ = some (.string "out.ty = .I[0] * 2;") := by
  have htargets : (scriptSentences "out.ty = .I[0] * 2; out.tz = 1;").map
      (fun s => (Context.resolve ⟨"e", {}⟩ s.target).toOption) =
        [some ⟨"out", "ty"⟩, some ⟨"out", "tz"⟩] := by
    decide +kernel
  have hinput : ¬ Context.Assigns ⟨"e", {}⟩ (scriptSentences "out.ty = .I[0] * 2; out.tz = 1;")
      ⟨"e", "input[0]"⟩ := by
    rintro ⟨s, hs, hresolve⟩
    have hmem := List.mem_map_of_mem (f := fun s =>
      (Context.resolve ⟨"e", {}⟩ s.target).toOption) hs
    rw [htargets, hresolve] at hmem
    simp [Except.toOption] at hmem
  have hfails : ((compileScript ⟨"e", {}⟩ "out.ty = .I[0] * 2; out.tz = 1;").run.run Graph.host
      Graph.lockedDoubling).1.toOption = none := by
    decide +kernel
  refine ⟨Graph.reachable_lockedDoubling, toOption_eq_some_iff.1 (by decide +kernel), ?_⟩
  obtain ⟨outcome, g', hrun, -, -, hplug, hvalue, herror, -⟩ :=
    compileScript_footprint ⟨"e", {}⟩ Graph.reachable_lockedDoubling
      "out.ty = .I[0] * 2; out.tz = 1;"
  rw [hrun] at hfails
  cases outcome with
  | ok n => cases hfails
  | error e =>
      obtain ⟨w, hw, -, hsame⟩ := hvalue ⟨"e", "expression"⟩ (.string "out.ty = .I[0] * 2;")
        (by decide +kernel)
      refine ⟨e, g', hrun, (herror e rfl rfl).1, ?_, hsame rfl ▸ hw⟩
      rw [(hplug ⟨"e", "input[0]"⟩ (by decide +kernel) hinput).2.2]
      decide +kernel

end RigScript
