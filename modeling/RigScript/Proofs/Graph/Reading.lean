import RigScript.Proofs.Graph.Frame
import RigScript.Proofs.Graph.Locks
import RigScript.Proofs.Graph.Presence

/-!
# Reading and evaluating

A plug that nothing drives and that is no output of a computing node has the value that is stored
at it. Reading it and evaluating it both look at the store, and they differ in one point: an array
element that was never written reads as zero, while its evaluation fails, and with it that of every
plug that it drives. It can be evaluated from the first write that is granted on, until its node is
deleted.

## Main definitions

* `RigScript.Graph.WritesTo`: whether one of some requests writes to a plug

## Main results

* `RigScript.Graph.evaluateFrom_of_recipe_error`: a plug without a recipe fails to evaluate
* `RigScript.Graph.isSome_value?_afterRequests`: a plug is stored from the first write on
* `RigScript.Graph.undriven_evaluates_iff_stored`: **reading and evaluating agree on what is
  stored**
-/

namespace RigScript

namespace Graph

variable {g g' : Graph} {p q : Plug} {w : Value}

/-! ### Plugs that nothing drives -/

/-- What is stored at a plug of a node that is there. -/
theorem value?_of_node {n : Node} (hn : g.nodes[p.node]? = some n) :
    g.value? p = n.attributes[p.attr]? := by
  simp [value?, hn]

/-- A node gives no formula to a plug that is no output. -/
theorem formula?_eq_none {n : Node} (hn : g.nodes[p.node]? = some n) (houtput : ¬ g.IsOutput p) :
    n.formula? p = none := by
  refine Node.formula?_eq_none_iff.2 fun hattr => houtput ⟨n.kind, ?_, hattr⟩
  rw [kind?, hn]
  rfl

/-- **A plug that cannot be read has no recipe**, for the same reason. -/
theorem recipe_of_getAttribute_error {e : GraphError} (hsource : g.source? p = none)
    (houtput : ¬ g.IsOutput p) (h : g.getAttribute p = .error e) : g.recipe p = .error e := by
  simp only [source?] at hsource
  cases hn : g.nodes[p.node]? with
  | none =>
      simp only [getAttribute, checkAttr, node, hn, bind, Except.bind] at h
      obtain rfl := Except.error.inj h
      simp only [recipe, hsource, node, hn, bind, Except.bind]
  | some n =>
      have hattr : ¬ (p.attr ∈ n.attributes ∨ isElement p.attr = true) := by
        intro hattr
        rw [getAttribute, checkAttr_eq_ok_iff.2 ⟨hn, hattr⟩] at h
        cases h
      have hmissing : n.attributes[p.attr]? = none :=
        Std.ExtTreeMap.getElem?_eq_none fun hmem => hattr (.inl hmem)
      simp only [getAttribute, checkAttr, node, hn, bind, Except.bind] at h
      rw [if_neg (by simpa using hattr)] at h
      obtain rfl := Except.error.inj h
      simp only [recipe, hsource, node, hn, bind, Except.bind, formula?_eq_none hn houtput,
        hmissing]
      rfl

/-- What is read at a plug that stores nothing. -/
theorem getAttribute_of_unstored (h : g.getAttribute p = .ok w) (hvalue : g.value? p = none) :
    isElement p.attr = true ∧ w = .double 0.0 := by
  obtain ⟨n, hn, rfl⟩ := getAttribute_eq_ok_iff.1 h
  obtain ⟨hnode, hattr⟩ := checkAttr_eq_ok_iff.1 hn
  rw [value?_of_node hnode] at hvalue
  refine ⟨hattr.resolve_left fun hmem => ?_, by rw [hvalue]; rfl⟩
  rw [Std.ExtTreeMap.mem_iff_isSome_getElem?, hvalue] at hmem
  cases hmem

/-- A plug that can be read and stores nothing has no recipe. -/
theorem recipe_of_unstored (hsource : g.source? p = none) (houtput : ¬ g.IsOutput p)
    (h : g.getAttribute p = .ok w) (hvalue : g.value? p = none) :
    g.recipe p = .error (.unknownAttribute p) := by
  obtain ⟨n, hn, -⟩ := getAttribute_eq_ok_iff.1 h
  have hnode := (checkAttr_eq_ok_iff.1 hn).1
  rw [value?_of_node hnode] at hvalue
  simp only [source?] at hsource
  simp only [recipe, hsource, node, hnode, bind, Except.bind, formula?_eq_none hnode houtput,
    hvalue]
  rfl

/-- A plug that stores a number has it for its recipe. -/
theorem recipe_of_value {x : Float} (hsource : g.source? p = none) (houtput : ¬ g.IsOutput p)
    (hvalue : (g.value? p).isSome) (h : g.getAttribute p = .ok w) (hx : w.toFloat? = some x) :
    g.recipe p = .ok (.stored x) := by
  obtain ⟨n, hn, rfl⟩ := getAttribute_eq_ok_iff.1 h
  have hnode := (checkAttr_eq_ok_iff.1 hn).1
  obtain ⟨v, hv⟩ := Option.isSome_iff_exists.1 hvalue
  rw [value?_of_node hnode] at hv
  rw [hv] at hx
  exact recipe_of_stored hsource hnode
    (Node.formula?_eq_none_iff.1 (formula?_eq_none hnode houtput)) hv hx

/-- A plug without a recipe fails to evaluate. -/
theorem evaluateFrom_of_recipe_error {path : List Plug} {e : GraphError} (hp : p ∉ path)
    (h : g.recipe p = .error e) : g.evaluateFrom path p = .error e := by
  rw [evaluateFrom, dif_neg hp]
  split <;> simp_all

/-- A plug that is connected from a plug without a recipe fails to evaluate. -/
theorem evaluate_of_source_error {e : GraphError} (hq : g.source? q = some p) (hne : p ≠ q)
    (h : g.recipe p = .error e) : g.evaluate q = .error e := by
  have hnext : g.evaluateFrom [q] p = .error e :=
    evaluateFrom_of_recipe_error (by simpa using hne) h
  rw [evaluate, evaluateFrom, dif_neg (by simp)]
  have hr := recipe_of_source hq
  split <;> simp_all

/-! ### Plugs that come into being -/

/-- Whether one of some requests **writes to** a plug: it is made and granted. -/
def WritesTo (g : Graph) (rs : List Request) (p : Plug) : Prop :=
  ∃ before v after, rs = before ++ .setAttribute p v :: after ∧
    (host.respond (g.afterRequests before) (.setAttribute p v)).1 = .ok ()

/-- No request writes anything. -/
theorem not_writesTo_nil : ¬ g.WritesTo [] p := by
  rintro ⟨before, v, after, heq, -⟩
  simp at heq

/-- The first request writes to a plug, or a later one does. -/
theorem writesTo_cons {r : Request} {rs : List Request} :
    g.WritesTo (r :: rs) p ↔
      (∃ v, r = .setAttribute p v ∧ (host.respond g (.setAttribute p v)).1 = .ok ()) ∨
        (host.respond g r).2.WritesTo rs p := by
  constructor
  · rintro ⟨_ | ⟨r', before⟩, v, after, heq, hok⟩
    · obtain ⟨rfl, rfl⟩ := List.cons.inj heq
      exact .inl ⟨v, rfl, hok⟩
    · obtain ⟨rfl, rfl⟩ := List.cons.inj heq
      exact .inr ⟨before, v, after, rfl, hok⟩
  · rintro (⟨v, rfl, hok⟩ | ⟨before, v, after, rfl, hok⟩)
    · exact ⟨[], v, rs, rfl, hok⟩
    · exact ⟨r :: before, v, after, rfl, hok⟩

/-- A node stays unless it is deleted. -/
theorem mem_nodes_respond {name : String} {r : Request} (hname : name ∈ g.nodes)
    (hne : r ≠ .deleteNode name) : name ∈ (host.respond g r).2.nodes := by
  simp only [host_respond]
  cases hr : g.perform r with
  | error e => exact hname
  | ok out =>
      by_cases hdelete : ∃ other, r = .deleteNode other
      · obtain ⟨other, rfl⟩ := hdelete
        obtain ⟨-, heq⟩ := perform_deleteNode.1 hr
        rw [heq]
        refine Std.ExtTreeMap.mem_erase.2 ⟨fun hsame => hne ?_, hname⟩
        rw [Std.LawfulEqOrd.eq_of_compare hsame]
      · exact (Grows.perform hr (fun other heq => hdelete ⟨other, heq⟩) name hname).1

/-- A granted request stores at a plug exactly when it is a write to it. -/
theorem isSome_value_effect {r : Request} {h : Holding} :
    (r.effect p h).value.isSome ↔ (∃ v, r = .setAttribute p v) ∨ h.value.isSome := by
  cases r with
  | setAttribute q v =>
      rw [Request.effect]
      split
      · next hq => simp [hq]
      · next hq => simp [hq]
  | connect source q force =>
      rw [Request.effect]
      split <;> simp
  | disconnect q =>
      rw [Request.effect]
      split <;> simp
  | setLocked q locked =>
      rw [Request.effect]
      split <;> simp
  | _ => simp [Request.effect]

/-- **A request stores at a plug** exactly when it writes to it. -/
theorem isSome_value?_respond {r : Request} (hp : p.node ∈ g.nodes)
    (hne : r ≠ .deleteNode p.node) :
    ((host.respond g r).2.value? p).isSome ↔
      (∃ v, r = .setAttribute p v ∧ (host.respond g (.setAttribute p v)).1 = .ok ()) ∨
        (g.value? p).isSome := by
  cases hr : g.perform r with
  | error e =>
      have hg : (host.respond g r).2 = g := by simp only [host_respond, hr]
      rw [hg]
      refine ⟨.inr, fun h => h.resolve_left ?_⟩
      rintro ⟨v, rfl, hok⟩
      simp only [host_respond, hr] at hok
      cases hok
  | ok out =>
      have hstep : (host.respond g r).2.value? p = (r.effect p (g.holding p)).value := by
        simp only [host_respond, hr]
        exact congrArg Holding.value (holding_perform hp hr hne)
      rw [hstep, isSome_value_effect]
      refine or_congr_left (exists_congr fun v => ?_)
      refine ⟨?_, And.left⟩
      rintro rfl
      simp only [host_respond, hr, true_and]

/-- **Requests store at a plug** exactly when one of them writes to it. -/
theorem isSome_value?_afterRequests {rs : List Request} (hp : p.node ∈ g.nodes)
    (hdelete : .deleteNode p.node ∉ rs) :
    ((g.afterRequests rs).value? p).isSome ↔ (g.value? p).isSome ∨ g.WritesTo rs p := by
  induction rs generalizing g with
  | nil => exact ⟨.inl, fun h => h.resolve_right not_writesTo_nil⟩
  | cons r rs ih =>
      simp only [List.mem_cons, not_or] at hdelete
      have hne := Ne.symm hdelete.1
      rw [writesTo_cons, ← or_assoc, or_comm (a := (g.value? p).isSome = true),
        ← isSome_value?_respond hp hne]
      exact ih (mem_nodes_respond hp hne) hdelete.2

/-- **Reading and evaluating agree on what is stored.** A plug that nothing drives and that is no
output fails to evaluate as it fails to be read, and a number that is read is its value exactly when
something is stored there. What is not stored and yet read is an array element: it reads as zero,
and neither it nor a plug that it drives has a value. It is stored from the first write on. -/
theorem undriven_evaluates_iff_stored (hsource : g.source? p = none) (houtput : ¬ g.IsOutput p) :
    (∀ e, g.getAttribute p = .error e → g.evaluate p = .error e) ∧
    (∀ w x, g.getAttribute p = .ok w → w.toFloat? = some x →
      (g.evaluate p = .ok x ↔ (g.value? p).isSome)) ∧
    (∀ w, g.getAttribute p = .ok w → g.value? p = none →
      isElement p.attr = true ∧ w = .double 0.0 ∧ g.evaluate p = .error (.unknownAttribute p) ∧
        ∀ q, g.source? q = some p → g.evaluate q = .error (.unknownAttribute p)) ∧
    (∀ rs, p.node ∈ g.nodes → .deleteNode p.node ∉ rs →
      (((g.afterRequests rs).value? p).isSome ↔ (g.value? p).isSome ∨ g.WritesTo rs p)) := by
  refine ⟨fun e he => ?_, fun w x hw hx => ⟨fun heval => ?_, fun hvalue => ?_⟩,
    fun w hw hvalue => ?_, fun rs => isSome_value?_afterRequests⟩
  · exact evaluateFrom_of_recipe_error (by simp) (recipe_of_getAttribute_error hsource houtput he)
  · by_contra hnone
    have hrecipe := recipe_of_unstored hsource houtput hw (by simpa using hnone)
    rw [evaluate, evaluateFrom_of_recipe_error (by simp) hrecipe] at heval
    cases heval
  · exact evaluateFrom_eq_ok_iff.2
      ⟨by simp, .stored x, recipe_of_value hsource houtput hvalue hw hx, rfl⟩
  · obtain ⟨helement, hzero⟩ := getAttribute_of_unstored hw hvalue
    have hrecipe := recipe_of_unstored hsource houtput hw hvalue
    refine ⟨helement, hzero, evaluateFrom_of_recipe_error (by simp) hrecipe, fun q hq => ?_⟩
    refine evaluate_of_source_error hq ?_ hrecipe
    rintro rfl
    cases hsource.symm.trans hq

/-- A graph in which an element of an array that was never written drives another one. -/
def unwrittenElement : Graph :=
  Graph.empty.afterRequests
    [.createNode (.other "transform"), .connect ⟨"transform1", "w[0]"⟩ ⟨"transform1", "w[1]"⟩ false]

/-- The element reads as zero, is accepted as a source and cannot be evaluated, until it is
written. -/
theorem undriven_evaluates_iff_stored_unwrittenElement :
    unwrittenElement.Reachable ∧
      unwrittenElement.source? ⟨"transform1", "w[0]"⟩ = none ∧
      ¬ unwrittenElement.IsOutput ⟨"transform1", "w[0]"⟩ ∧
      unwrittenElement.getAttribute ⟨"transform1", "w[0]"⟩ = .ok (.double 0.0) ∧
      unwrittenElement.evaluate ⟨"transform1", "w[0]"⟩ =
        .error (.unknownAttribute ⟨"transform1", "w[0]"⟩) ∧
      unwrittenElement.evaluate ⟨"transform1", "w[1]"⟩ =
        .error (.unknownAttribute ⟨"transform1", "w[0]"⟩) ∧
      ((unwrittenElement.afterRequests [.setAttribute ⟨"transform1", "w[0]"⟩ (.int 3)]).value?
        ⟨"transform1", "w[0]"⟩).isSome := by
  have hsource : unwrittenElement.source? ⟨"transform1", "w[0]"⟩ = none := by decide +kernel
  have hkind : unwrittenElement.kind? "transform1" = some (.other "transform") := by decide +kernel
  have houtput : ¬ unwrittenElement.IsOutput ⟨"transform1", "w[0]"⟩ := by
    rintro ⟨k, hk, hmem⟩
    obtain rfl := Option.some.inj (hkind.symm.trans hk)
    cases hmem
  have hread : unwrittenElement.getAttribute ⟨"transform1", "w[0]"⟩ = .ok (.double 0.0) :=
    toOption_eq_some_iff.1 (by decide +kernel)
  obtain ⟨-, -, hunstored, hwrites⟩ := undriven_evaluates_iff_stored hsource houtput
  obtain ⟨-, -, heval, hdriven⟩ := hunstored _ hread (by decide +kernel)
  refine ⟨Reachable.empty.afterRequests _, hsource, houtput, hread, heval,
    hdriven _ (by decide +kernel), ?_⟩
  refine (hwrites _ (by decide +kernel) (by decide)).2 (.inr ⟨[], .int 3, [], rfl, ?_⟩)
  exact toOption_eq_some_iff.1 (by decide +kernel)

end Graph

end RigScript
