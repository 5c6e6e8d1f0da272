import Mathlib.Data.List.Basic
import RigScript.Proofs.Graph.Requests

/-!
# What lies within a plug, and what is connected there

A plug lies within another one when it is the same, or when its attribute goes on with a bracket or
a point where the other one ends. This makes a forest of the plugs: what a plug lies within is a
chain. So `input[1].x` lies within `input[1]` and `input`, and `inputs` lies within neither.

A scene graph that is asked what is connected to a plug lists the sources of the connections that
end within it, in the order of their ends. Whatever is connected within an element or a child is
connected within the whole.

## Main definitions

* `RigScript.Graph.ending`: the connections that end within a plug

## Main results

* `RigScript.Plug.isWithin_iff`: containment in terms of the characters of attributes
* `RigScript.Plug.isWithin_trans` and its neighbours: containment is a tree order
* `RigScript.Graph.listIncoming_exact`: **what a scene graph answers about incoming connections**
-/

namespace RigScript

/-! ### Containment -/

namespace Plug

variable {p q r : Plug}

theorem after?_eq_some_iff {beginning text rest : List Char} :
    after? beginning text = some rest ↔ text = beginning ++ rest := by
  fun_induction after? beginning text with
  | case1 cs => simp
  | case2 => simp
  | case3 b bs cs ih => simp [ih]
  | case4 b bs c cs hne => simp [Ne.symm hne]

theorem extendsAttr_iff {rest : List Char} :
    extendsAttr rest = true ↔
      rest = [] ∨ (∃ tail, rest = '[' :: tail) ∨ ∃ tail, rest = '.' :: tail := by
  cases rest with
  | nil => simp [extendsAttr]
  | cons c cs => simp [extendsAttr]

theorem extendsAttr_append {front back : List Char} (hfront : extendsAttr front = true)
    (hback : extendsAttr back = true) : extendsAttr (front ++ back) = true := by
  cases front with
  | nil => exact hback
  | cons c cs => exact hfront

theorem extendsAttr_of_append {front back : List Char}
    (h : extendsAttr (front ++ back) = true) : extendsAttr front = true := by
  cases front with
  | nil => rfl
  | cons c cs => exact h

theorem isWithin_iff : p.isWithin q = true ↔
    p.node = q.node ∧ ∃ rest, p.attr.toList = q.attr.toList ++ rest ∧ extendsAttr rest = true := by
  rw [isWithin, Bool.and_eq_true, decide_eq_true_eq]
  refine and_congr_right fun _ => ?_
  cases h : after? q.attr.toList p.attr.toList with
  | some rest => simp [after?_eq_some_iff.1 h]
  | none =>
      simp only [Bool.false_eq_true, false_iff, not_exists, not_and]
      intro rest hrest
      rw [after?_eq_some_iff.2 hrest] at h
      cases h

/-- The plugs within a plug are itself, its elements and its children, with theirs. -/
theorem isWithin_iff_attr : p.isWithin q = true ↔
    p.node = q.node ∧ (p.attr = q.attr ∨ (∃ tail, p.attr = q.attr ++ "[" ++ tail) ∨
      ∃ tail, p.attr = q.attr ++ "." ++ tail) := by
  rw [isWithin_iff]
  refine and_congr_right fun _ => ?_
  simp only [← String.toList_inj, String.toList_append, extendsAttr_iff]
  constructor
  · rintro ⟨rest, hrest, rfl | ⟨tail, rfl⟩ | ⟨tail, rfl⟩⟩
    · exact .inl (by simpa using hrest)
    · exact .inr (.inl ⟨String.ofList tail, by simpa using hrest⟩)
    · exact .inr (.inr ⟨String.ofList tail, by simpa using hrest⟩)
  · rintro (h | ⟨tail, h⟩ | ⟨tail, h⟩)
    · exact ⟨[], by simpa using h, .inl rfl⟩
    · exact ⟨'[' :: tail.toList, by simpa using h, .inr (.inl ⟨_, rfl⟩)⟩
    · exact ⟨'.' :: tail.toList, by simpa using h, .inr (.inr ⟨_, rfl⟩)⟩

/-- A plug within another one is on the same node. -/
theorem node_eq_of_isWithin (h : p.isWithin q = true) : p.node = q.node :=
  (isWithin_iff.1 h).1

theorem isWithin_refl (p : Plug) : p.isWithin p = true :=
  isWithin_iff.2 ⟨rfl, [], by simp, rfl⟩

theorem isWithin_trans (hpq : p.isWithin q = true) (hqr : q.isWithin r = true) :
    p.isWithin r = true := by
  obtain ⟨hnode, rest, hrest, hextends⟩ := isWithin_iff.1 hpq
  obtain ⟨hnode', rest', hrest', hextends'⟩ := isWithin_iff.1 hqr
  refine isWithin_iff.2 ⟨hnode.trans hnode', rest' ++ rest, ?_,
    extendsAttr_append hextends' hextends⟩
  rw [hrest, hrest', List.append_assoc]

theorem isWithin_antisymm (hpq : p.isWithin q = true) (hqp : q.isWithin p = true) : p = q := by
  obtain ⟨hnode, rest, hrest, -⟩ := isWithin_iff.1 hpq
  obtain ⟨-, rest', hrest', -⟩ := isWithin_iff.1 hqp
  have hattr : p.attr.toList = q.attr.toList :=
    List.IsPrefix.eq_of_length_le ⟨rest', hrest'.symm⟩ (by simp [hrest])
  exact congrArg₂ Plug.mk hnode (String.toList_inj.1 hattr)

/-- What a plug lies within is a chain: of two attributes that it goes on from, one goes on from the
other, and with the same character. -/
theorem isWithin_or_isWithin (hq : p.isWithin q = true) (hr : p.isWithin r = true) :
    q.isWithin r = true ∨ r.isWithin q = true := by
  obtain ⟨hnode, rest, hrest, hextends⟩ := isWithin_iff.1 hq
  obtain ⟨hnode', rest', hrest', hextends'⟩ := isWithin_iff.1 hr
  rcases List.append_eq_append_iff.1 (hrest.symm.trans hrest') with
    ⟨gap, hattr, rfl⟩ | ⟨gap, hattr, rfl⟩
  · exact .inr (isWithin_iff.2 ⟨hnode'.symm.trans hnode, gap, hattr,
      extendsAttr_of_append hextends⟩)
  · exact .inl (isWithin_iff.2 ⟨hnode.symm.trans hnode', gap, hattr,
      extendsAttr_of_append hextends'⟩)

end Plug

/-! ### Incoming connections -/

namespace Graph

variable {g : Graph} {p q : Plug}

/-- The connections that end within a plug, each with its end first, in the order of their ends. -/
def ending (g : Graph) (p : Plug) : List (Plug × Plug) :=
  g.connections.toList.filter fun e => e.1.isWithin p

theorem mem_ending {dest source : Plug} :
    (dest, source) ∈ g.ending p ↔ g.source? dest = some source ∧ dest.isWithin p = true := by
  rw [ending, List.mem_filter, Std.ExtTreeMap.mem_toList_iff_getElem?_eq_some]
  rfl

theorem ending_pairwise (g : Graph) (p : Plug) :
    (g.ending p).Pairwise fun a b => compare a.1 b.1 = .lt :=
  Std.ExtTreeMap.ordered_keys_toList.filter _

theorem ending_sublist (h : q.isWithin p = true) : (g.ending q).Sublist (g.ending p) :=
  List.monotone_filter_right _ fun _ he => Plug.isWithin_trans he h

theorem ending_eq_nil_iff : g.ending p = [] ↔
    ∀ dest source, g.source? dest = some source → dest.isWithin p = false := by
  rw [List.eq_nil_iff_forall_not_mem]
  simp only [Prod.forall, mem_ending, not_and, Bool.not_eq_true]

/-- On a node that exists, a graph answers with the sources of the connections that end within the
plug, if there are any. -/
theorem listIncoming_eq_ok_iff {incoming : Option (List Plug)} :
    g.listIncoming p = .ok incoming ↔ p.node ∈ g.nodes ∧
      incoming = if g.ending p = [] then none else some ((g.ending p).map Prod.snd) := by
  have hanswer : (if ((g.ending p).map Prod.snd).isEmpty then none
      else some ((g.ending p).map Prod.snd)) =
        if g.ending p = [] then none else some ((g.ending p).map Prod.snd) := by
    simp only [List.isEmpty_iff, List.map_eq_nil_iff]
  rw [← hanswer, listIncoming, bind_eq_ok_iff]
  constructor
  · rintro ⟨n, hn, h⟩
    exact ⟨Std.ExtTreeMap.mem_iff_isSome_getElem?.2 (by simp [node_eq_ok_iff.1 hn]),
      (Except.ok.inj h).symm⟩
  · rintro ⟨hp, rfl⟩
    obtain ⟨n, hn⟩ := exists_node_of_mem hp
    exact ⟨n, node_eq_ok_iff.2 hn, rfl⟩

theorem listIncoming_eq (h : p.node ∈ g.nodes) : g.listIncoming p =
    .ok (if g.ending p = [] then none else some ((g.ending p).map Prod.snd)) :=
  listIncoming_eq_ok_iff.2 ⟨h, rfl⟩

theorem getD_sources (ends : List (Plug × Plug)) :
    (if ends = [] then none else some (ends.map Prod.snd)).getD [] = ends.map Prod.snd := by
  split <;> simp [*]

/-- **What a scene graph answers about incoming connections.** The plugs within a plug are itself,
its elements and its children, with theirs, and containment is a tree order. On a node that exists,
the answer lists the sources of the connections that end within the plug, each connection once and
in the order of their ends; nothing is answered exactly when there are none. The answer for a plug
within it is part of that list, in the same order. -/
theorem listIncoming_exact :
    (∀ p q : Plug, p.isWithin q = true ↔ p.node = q.node ∧ (p.attr = q.attr ∨
      (∃ tail, p.attr = q.attr ++ "[" ++ tail) ∨ ∃ tail, p.attr = q.attr ++ "." ++ tail)) ∧
    (∀ p : Plug, p.isWithin p = true) ∧
    (∀ p q r : Plug, p.isWithin q = true → q.isWithin r = true → p.isWithin r = true) ∧
    (∀ p q : Plug, p.isWithin q = true → q.isWithin p = true → p = q) ∧
    (∀ p q r : Plug, p.isWithin q = true → p.isWithin r = true →
      q.isWithin r = true ∨ r.isWithin q = true) ∧
    ∀ (g : Graph) (p : Plug), p.node ∈ g.nodes →
      (g.listIncoming p = .ok none ↔
        ∀ dest source, g.source? dest = some source → dest.isWithin p = false) ∧
      (∃ ends : List (Plug × Plug),
        (∀ dest source, (dest, source) ∈ ends ↔
          g.source? dest = some source ∧ dest.isWithin p = true) ∧
        ends.Pairwise (fun a b => compare a.1 b.1 = .lt) ∧
        g.listIncoming p = .ok (if ends = [] then none else some (ends.map Prod.snd))) ∧
      ∀ q : Plug, q.isWithin p = true → ∃ part whole : Option (List Plug),
        g.listIncoming q = .ok part ∧ g.listIncoming p = .ok whole ∧
          (part.getD []).Sublist (whole.getD []) := by
  refine ⟨fun p q => Plug.isWithin_iff_attr, Plug.isWithin_refl,
    fun p q r => Plug.isWithin_trans, fun p q => Plug.isWithin_antisymm,
    fun p q r => Plug.isWithin_or_isWithin, fun g p hp => ⟨?_, ⟨g.ending p,
      fun dest source => mem_ending, ending_pairwise g p, listIncoming_eq hp⟩, fun q hq => ?_⟩⟩
  · rw [listIncoming_eq hp, ← ending_eq_nil_iff]
    split <;> simp [*]
  · have hqnode : q.node ∈ g.nodes := Plug.node_eq_of_isWithin hq ▸ hp
    refine ⟨_, _, listIncoming_eq hqnode, listIncoming_eq hp, ?_⟩
    rw [getD_sources, getD_sources]
    exact (ending_sublist hq).map _

/-- A construct with connections to elements of two attributes, one of which is the beginning of the
other. -/
def bundled : Graph :=
  [("out[0]", "input[1].x"), ("out[1]", "inputs[0]"), ("out[0]", "input[0]")].foldl
    (fun g e => (g.addConnection ⟨"ctrl", e.1⟩ ⟨"e", e.2⟩).toOption.getD g)
    ((empty.addNode "ctrl" (.other "transform")).addNode "e" (.other "expression"))

/-- Two connections from one source end within the input, and one of them within an element. -/
theorem listIncoming_exact_bundled :
    "e" ∈ bundled.nodes ∧ (⟨"e", "input[1]"⟩ : Plug).isWithin ⟨"e", "input"⟩ = true ∧
    bundled.listIncoming ⟨"e", "input"⟩ = .ok (some [⟨"ctrl", "out[0]"⟩, ⟨"ctrl", "out[0]"⟩]) ∧
    (∃ part, bundled.listIncoming ⟨"e", "input[1]"⟩ = .ok part ∧
      (part.getD []).Sublist [⟨"ctrl", "out[0]"⟩, ⟨"ctrl", "out[0]"⟩]) ∧
    ∀ dest source, bundled.source? dest = some source →
      dest.isWithin ⟨"e", "in"⟩ = false := by
  have hmem : "e" ∈ bundled.nodes := Std.ExtTreeMap.contains_iff_mem.1 (by decide +kernel)
  have hwithin : (⟨"e", "input[1]"⟩ : Plug).isWithin ⟨"e", "input"⟩ = true := by decide +kernel
  have hinput : bundled.listIncoming ⟨"e", "input"⟩ =
      .ok (some [⟨"ctrl", "out[0]"⟩, ⟨"ctrl", "out[0]"⟩]) :=
    toOption_eq_some_iff.1 (by decide +kernel)
  have hnone : bundled.listIncoming ⟨"e", "in"⟩ = .ok none :=
    toOption_eq_some_iff.1 (by decide +kernel)
  obtain ⟨-, -, -, -, -, hanswers⟩ := listIncoming_exact
  obtain ⟨part, whole, hpart, hwhole, hsublist⟩ :=
    (hanswers bundled ⟨"e", "input"⟩ hmem).2.2 _ hwithin
  rw [hinput] at hwhole
  cases hwhole
  exact ⟨hmem, hwithin, hinput, ⟨part, hpart, hsublist⟩,
    (hanswers bundled ⟨"e", "in"⟩ hmem).1.1 hnone⟩

end Graph

end RigScript
