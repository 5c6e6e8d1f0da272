import Mathlib.Algebra.Group.Nat.Defs
import Mathlib.Data.List.Nodup
import Mathlib.Data.Nat.Find
import RigScript.Proofs.Graph.Requests
import Std.Data.String.ToNat

/-!
# Names of new nodes

The name of a new node is the type name of its kind followed by the least number from one on that
makes up a free name. Different numbers make up different names, so among one more names than there
are nodes one is free, and the search for it ends there. What nodes are called plays no part in
this: a node that was set up under a numbered name holds its number, and the number of a node that
was deleted is used again.

## Main definitions

* `RigScript.NodeKind.candidates`: the names that are tried
* `RigScript.Graph.LeastFree`: the number that a new node gets
* `RigScript.Graph.Grown`: a graph with one fresh node more

## Main results

* `RigScript.Graph.exists_leastFree`: there is a free number, at most one more than there are nodes
* `RigScript.Graph.freshName_notMem`: the name of a new node is free
* `RigScript.Graph.createNode_least_free`: creating a node adds one fresh node under the first free
  name and changes nothing else
-/

namespace RigScript

namespace NodeKind

/-- The name that a kind and a number make up. -/
def numbered (kind : NodeKind) (n : ℕ) : String :=
  kind.hostType ++ toString n

/-- The first numbered names of a kind, in the order in which they are tried. -/
def candidates (kind : NodeKind) (count : ℕ) : List String :=
  (List.range count).map fun i => kind.numbered (i + 1)

variable (kind : NodeKind)

/-- Different numbers make up different names, whatever the type name ends in. -/
theorem numbered_injective : Function.Injective kind.numbered :=
  fun _ _ h => Nat.repr_injective ((String.append_right_inj _).1 h)

theorem nodup_candidates (count : ℕ) : (kind.candidates count).Nodup :=
  List.Nodup.map (fun _ _ h => Nat.succ_injective (kind.numbered_injective h)) List.nodup_range

/-- A kind has at most one default for an attribute. -/
theorem nodup_defaultAttributes : (kind.defaultAttributes.map Prod.fst).Nodup := by
  cases kind with
  | primitive p => cases p <;> decide
  | other t => exact List.nodup_nil

end NodeKind

/-! ### Fresh nodes -/

/-- A **fresh node** of a kind: it holds the defaults of its kind and nothing else. -/
structure Node.Fresh (n : Node) (kind : NodeKind) : Prop where
  /-- The node is of that kind. -/
  kind_eq : n.kind = kind
  /-- The stored attributes are the defaults. -/
  attributes : ∀ attr v, n.attributes[attr]? = some v ↔ (attr, v) ∈ kind.defaultAttributes
  /-- Nothing is locked. -/
  locked : ∀ attr, attr ∉ n.locked
  /-- There are no keys. -/
  keys : n.curve.keys = []
  /-- The curve holds its first value. -/
  pre : n.curve.pre = .constant
  /-- The curve holds its last value. -/
  post : n.curve.post = .constant

theorem Node.fresh_ofKind (kind : NodeKind) : (Node.ofKind kind).Fresh kind where
  kind_eq := rfl
  attributes attr v := by
    have hdistinct : kind.defaultAttributes.Pairwise fun a b => ¬compare a.1 b.1 = .eq := by
      refine (List.pairwise_map.1 kind.nodup_defaultAttributes).imp fun hne heq => hne ?_
      exact Std.LawfulEqOrd.eq_of_compare heq
    refine ⟨mem_of_getElem?_ofList, ?_⟩
    exact Std.ExtTreeMap.getElem?_ofList_of_mem Std.ReflCmp.compare_self hdistinct
  locked attr := Std.ExtTreeSet.not_mem_empty
  keys := rfl
  pre := rfl
  post := rfl

namespace Graph

variable {g g' : Graph} {kind : NodeKind} {n : ℕ}

/-! ### The first free number -/

/-- The number from one on that makes up a free name while all numbers below it make up names that
are taken. -/
structure LeastFree (g : Graph) (kind : NodeKind) (n : ℕ) : Prop where
  /-- Numbers start at one. -/
  pos : 1 ≤ n
  /-- The name is free. -/
  notMem : kind.numbered n ∉ g.nodes
  /-- The names before it are taken. -/
  mem_of_lt : ∀ m, 1 ≤ m → m < n → kind.numbered m ∈ g.nodes

/-- Not all candidates are taken when there are more of them than nodes. -/
theorem exists_free (g : Graph) (kind : NodeKind) :
    ∃ i ≤ g.nodeCount, kind.numbered (i + 1) ∉ g.nodes := by
  by_contra hnone
  have hsub : kind.candidates (g.nodeCount + 1) ⊆ g.nodes.keys := by
    intro name hname
    obtain ⟨i, hi, rfl⟩ := List.mem_map.1 hname
    rw [List.mem_range] at hi
    by_contra hfree
    exact hnone ⟨i, by omega, fun hmem => hfree (Std.ExtTreeMap.mem_keys.2 hmem)⟩
  have hle := (kind.nodup_candidates (g.nodeCount + 1)).length_le_of_subset hsub
  rw [Std.ExtTreeMap.length_keys, NodeKind.candidates, List.length_map, List.length_range] at hle
  exact absurd hle (Nat.not_succ_le_self _)

/-- **There is a first free number**, at most one more than there are nodes. -/
theorem exists_leastFree (g : Graph) (kind : NodeKind) :
    ∃ n, g.LeastFree kind n ∧ n ≤ g.nodeCount + 1 := by
  classical
  have hfree : ∃ i, kind.numbered (i + 1) ∉ g.nodes := by
    obtain ⟨i, -, hi⟩ := g.exists_free kind
    exact ⟨i, hi⟩
  refine ⟨Nat.find hfree + 1, ⟨by omega, Nat.find_spec hfree, fun m hpos hlt => ?_⟩, ?_⟩
  · obtain ⟨i, rfl⟩ : ∃ i, m = i + 1 := ⟨m - 1, by omega⟩
    exact not_not.1 (Nat.find_min hfree (by omega))
  · obtain ⟨i, hle, hi⟩ := g.exists_free kind
    have := Nat.find_min' hfree hi
    omega

/-- A search that gets as far as the first free number ends there. -/
theorem LeastFree.find?_candidates (h : g.LeastFree kind n) {count : ℕ} (hcount : n ≤ count) :
    (kind.candidates count).find? (fun name => !g.nodes.contains name) =
      some (kind.numbered n) := by
  obtain ⟨i, rfl⟩ : ∃ i, n = i + 1 := ⟨n - 1, by have := h.pos; omega⟩
  have hi : (List.range count).find? (fun j => !g.nodes.contains (kind.numbered (j + 1))) =
      some i := by
    refine List.find?_range_eq_some.2 ⟨?_, List.mem_range.2 (by omega), fun j hj => ?_⟩
    · rw [Bool.not_eq_true', ← Bool.not_eq_true, ← Std.ExtTreeMap.mem_iff_contains]
      exact h.notMem
    · simpa using h.mem_of_lt (j + 1) (by omega) (by omega)
  rw [NodeKind.candidates, List.find?_map]
  exact congrArg (Option.map _) hi

/-- A new node gets the first free number. -/
theorem LeastFree.freshName_eq (h : g.LeastFree kind n) (hn : n ≤ g.nodeCount + 1) :
    g.freshName kind = kind.numbered n :=
  congrArg (Option.getD · kind.hostType) (h.find?_candidates hn)

/-- **The name of a new node is free.** -/
theorem freshName_notMem (g : Graph) (kind : NodeKind) : g.freshName kind ∉ g.nodes := by
  obtain ⟨n, h, hn⟩ := g.exists_leastFree kind
  exact h.freshName_eq hn ▸ h.notMem

/-! ### Creating a node -/

/-- A graph that has **grown** by one fresh node and is the same otherwise. -/
structure Grown (g : Graph) (name : String) (kind : NodeKind) (g' : Graph) : Prop where
  /-- No node is replaced. -/
  notMem : name ∉ g.nodes
  /-- The new node is fresh. -/
  node : ∃ n, g'.nodes[name]? = some n ∧ n.Fresh kind
  /-- Every other name stands for what it stood for. -/
  others : ∀ other, other ≠ name → g'.nodes[other]? = g.nodes[other]?
  /-- There is one node more. -/
  nodeCount : g'.nodeCount = g.nodeCount + 1
  /-- The connections are the same. -/
  connections : g'.connections = g.connections
  /-- The selection is the same. -/
  selection : g'.selection = g.selection

/-- Putting a fresh node under a free name makes a graph grow by it. -/
theorem grown_insert {name : String} (hname : name ∉ g.nodes) (kind : NodeKind)
    (journal : List Change) :
    g.Grown name kind { g with nodes := g.nodes.insert name (.ofKind kind), journal } where
  notMem := hname
  node := ⟨.ofKind kind, Std.ExtTreeMap.getElem?_insert_self, Node.fresh_ofKind kind⟩
  others other hne := by
    refine Std.ExtTreeMap.getElem?_insert.trans (if_neg fun heq => hne ?_)
    exact (Std.LawfulEqOrd.eq_of_compare heq).symm
  nodeCount := Std.ExtTreeMap.size_insert.trans (if_neg hname)
  connections := rfl
  selection := rfl

/-- **Created names are fresh and minimal.** As long as the nodes can be numbered in 32 bits, the
search through the numbers from one on ends with the first that makes up a free name, which is at
most one more than there are nodes. Creating a node gives it that name; the graph has then one
fresh node more and is the same otherwise. -/
theorem createNode_least_free (g : Graph) (kind : NodeKind) (hcount : g.nodeCount < 2 ^ 32 - 1) :
    ∃ n g', g.LeastFree kind n ∧ n ≤ g.nodeCount + 1 ∧
      (kind.candidates (2 ^ 32 - 1)).find? (fun name => !g.nodes.contains name) =
        some (kind.numbered n) ∧
      g.perform (.createNode kind) = .ok (kind.numbered n, g') ∧
      g.Grown (kind.numbered n) kind g' := by
  obtain ⟨n, h, hn⟩ := g.exists_leastFree kind
  have hname := h.freshName_eq hn
  refine ⟨n, _, h, hn, h.find?_candidates (by omega), perform_createNode.2 ⟨hname.symm, rfl⟩, ?_⟩
  rw [hname]
  exact grown_insert h.notMem kind _

/-- Two nodes set up under numbered names, the later of them of a kind with another type name. -/
def gapped : Graph :=
  (Graph.empty.addNode "clamp1" (.primitive .clamp)).addNode "clamp3" (.other "joint")

/-- The gap between two numbered names is filled, and the node after it stays what it is. -/
theorem createNode_least_free_gapped :
    gapped.nodeCount < 2 ^ 32 - 1 ∧
      ∃ g', gapped.perform (.createNode (.primitive .clamp)) = .ok ("clamp2", g') ∧
        g'.nodeCount = 3 ∧ g'.kind? "clamp2" = some (.primitive .clamp) ∧
        g'.kind? "clamp3" = some (.other "joint") := by
  have hcount : gapped.nodeCount < 2 ^ 32 - 1 := by decide
  obtain ⟨n, g', h, -, -, hperform, hgrown⟩ :=
    createNode_least_free gapped (.primitive .clamp) hcount
  have hlower : n ≠ 1 := by
    rintro rfl
    exact h.notMem (by decide)
  have hupper : ¬2 < n := fun hlt => absurd (h.mem_of_lt 2 (by decide) hlt) (by decide)
  obtain rfl : n = 2 := by have := h.pos; omega
  obtain ⟨m, hm, hfresh⟩ := hgrown.node
  refine ⟨hcount, g', hperform, hgrown.nodeCount, ?_, ?_⟩
  · exact (congrArg (Option.map Node.kind) hm).trans (congrArg some hfresh.kind_eq)
  · exact congrArg (Option.map Node.kind) (hgrown.others "clamp3" (by decide))

end Graph

end RigScript
