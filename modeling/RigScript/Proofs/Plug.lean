import Mathlib.Data.List.TakeWhile
import RigScript.Plug

/-!
# Plugs and their written forms

A text is cut at its first point. The plugs that texts stand for are therefore those whose node has
a name without a point and whose attribute has a name, and each of them is written in one way. The
attribute may have points and brackets of its own.

## Main definitions

* `RigScript.Plug.Writable`: the plugs that have a written form

## Main results

* `RigScript.Plug.parse?_of_point`: a text is cut at its first point
* `RigScript.Plug.parse?_eq_some_iff`: the text that stands for a plug is its written form
-/

namespace RigScript

namespace Plug

/-- A plug is **writable** when its written form stands for it. -/
structure Writable (p : Plug) : Prop where
  /-- The node has a name. -/
  node_ne : p.node.toList ≠ []
  /-- The name of the node has no point. -/
  point_notMem : '.' ∉ p.node.toList
  /-- The attribute has a name. -/
  attr_ne : p.attr.toList ≠ []

/-- A text is cut at its first point. -/
theorem parse?_of_point {node attr : List Char} (hnode : node ≠ []) (hpoint : '.' ∉ node)
    (hattr : attr ≠ []) :
    Plug.parse? (String.ofList (node ++ '.' :: attr)) =
      some ⟨String.ofList node, String.ofList attr⟩ := by
  have hrun : ∀ x ∈ node, (x != '.') = true := by
    intro x hx
    rw [bne_iff_ne]
    rintro rfl
    exact hpoint hx
  simp [Plug.parse?, List.takeWhile_append_of_pos hrun, List.dropWhile_append_of_pos hrun, hnode,
    hattr]

/-- The characters of a written plug. -/
theorem text_eq (p : Plug) : p.text = String.ofList (p.node.toList ++ '.' :: p.attr.toList) := by
  apply String.toList_injective
  simp [text]

/-- A writable plug is what its written form stands for. -/
theorem Writable.parse?_text {p : Plug} (h : p.Writable) : Plug.parse? p.text = some p := by
  rw [text_eq, parse?_of_point h.node_ne h.point_notMem h.attr_ne]
  simp

/-- **The text that stands for a plug is its written form.** -/
theorem parse?_eq_some_iff {path : String} {p : Plug} :
    Plug.parse? path = some p ↔ p.Writable ∧ path = p.text := by
  constructor
  · intro h
    simp only [parse?] at h
    split at h
    · next x attr hrest =>
      -- The run before the rest has no point, and the rest starts with one.
      obtain rfl : x = '.' := by
        have := List.head?_dropWhile_not (· != '.') path.toList
        simpa [hrest] using this
      have hnode : '.' ∉ path.toList.takeWhile (· != '.') :=
        fun hmem => absurd (List.mem_takeWhile_imp hmem) (by simp)
      have hpath : path = String.ofList (path.toList.takeWhile (· != '.') ++ '.' :: attr) := by
        rw [← hrest, List.takeWhile_append_dropWhile, String.ofList_toList]
      split at h
      · cases h
      · next hne =>
        cases h
        simp only [Bool.or_eq_true, List.isEmpty_iff, not_or] at hne
        exact ⟨⟨by simpa using hne.1, by simpa using hnode, by simpa using hne.2⟩,
          by simpa [text_eq] using hpath⟩
    · cases h
  · rintro ⟨h, rfl⟩
    exact h.parse?_text

end Plug

end RigScript
