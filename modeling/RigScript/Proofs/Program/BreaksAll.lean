import RigScript.Proofs.Program.Breaks

/-!
# Where a program breaks off

A program breaks off in one of its segments, after complete ones, and a segment breaks off in an
expression or between two of its parts. What breaks off can be completed, by closing what is open.
It cannot be continued with the token where it breaks off, because each complete part is the only
one that the tokens start with. For the same reason no two programs have one spelling.

## Main definitions

* `RigScript.Sentence.Breaks`, `RigScript.Sentence.BreaksBlock`: where a sentence or a block does
* `RigScript.Segment.Breaks`: where a segment breaks off
* `RigScript.Segment.BreaksAll`: where a program does

## Main results

* `RigScript.Segment.BreaksAll.exists_derivesAll`: a program that breaks off can be completed
* `RigScript.Segment.BreaksAll.not_starts`: no program goes on with the token
* `RigScript.Program.Derives.unique`: no two programs have one spelling
-/

namespace RigScript

/-! ### Sentences that break off -/

namespace Sentence

/-- **A sentence breaks off.** -/
inductive Breaks : List Token.Kind → Token.Kind → Prop
  /-- A sentence starts with a path. -/
  | target {k : Token.Kind} (h : ∀ p, k ≠ .path p) : Breaks [] k
  /-- The path is followed by an equality sign. -/
  | assign (p : String) {k : Token.Kind} (h : k ≠ .mark .assign) : Breaks [.path p] k
  /-- The expression breaks off. -/
  | value (p : String) {w : List Token.Kind} {k : Token.Kind} (h : Expr.Breaks .comparison w k) :
      Breaks (.path p :: .mark .assign :: w) k

/-- **The sentences of a block break off** after the opening brace. -/
inductive BreaksAll : List Token.Kind → Token.Kind → Prop
  /-- A sentence breaks off where the block does not close. -/
  | sentence {w : List Token.Kind} {k : Token.Kind} (h : Breaks w k)
      (close : (w ++ [k]).head? ≠ some (.mark .closeBrace)) : BreaksAll w k
  /-- A block neither goes on nor closes after a sentence. -/
  | after {s : Sentence} {w : List Token.Kind} {k : Token.Kind} (h : s.Derives w)
      (ends : Stratum.comparison.Ends k) (semicolon : k ≠ .mark .semicolon)
      (close : k ≠ .mark .closeBrace) : BreaksAll w k
  /-- What comes after a sentence and its semicolon breaks off. -/
  | cons {s : Sentence} {u w : List Token.Kind} {k : Token.Kind} (head : s.Derives u)
      (tail : BreaksAll w k) : BreaksAll (u ++ .mark .semicolon :: w) k

/-- **A block breaks off.** -/
inductive BreaksBlock : List Token.Kind → Token.Kind → Prop
  | opening {k : Token.Kind} (h : k ≠ .mark .openBrace) : BreaksBlock [] k
  | body {w : List Token.Kind} {k : Token.Kind} (h : BreaksAll w k) :
      BreaksBlock (.mark .openBrace :: w) k

/-- **A sentence that breaks off can be completed.** -/
theorem Breaks.exists_derives {w : List Token.Kind} {k : Token.Kind} (h : Breaks w k) :
    ∃ (s : Sentence) (v : List Token.Kind), s.Derives (w ++ v) := by
  have zero : Expr.Derives .comparison (.number 0) [.number 0] :=
    (Expr.Derives.number 0).of_primary .comparison
  cases h with
  | target => exact ⟨⟨"a.b", .number 0⟩, _, _, zero, rfl⟩
  | assign p => exact ⟨⟨p, .number 0⟩, _, _, zero, rfl⟩
  | value p h =>
      obtain ⟨e, v, he⟩ := h.exists_derives
      exact ⟨⟨p, e⟩, v, _, he, rfl⟩

theorem BreaksAll.exists_derivesAll {w : List Token.Kind} {k : Token.Kind} (h : BreaksAll w k) :
    ∃ ss v, DerivesAll ss (w ++ v) := by
  induction h with
  | sentence h =>
      obtain ⟨s, v, hs⟩ := h.exists_derives
      exact ⟨[s], v, .last hs⟩
  | @after s w k h => exact ⟨[s], [], by simpa using .last h⟩
  | cons head _ ih =>
      obtain ⟨ss, v, hss⟩ := ih
      exact ⟨_, v, by simpa using .cons head hss⟩

theorem BreaksBlock.exists_derivesBlock {w : List Token.Kind} {k : Token.Kind}
    (h : BreaksBlock w k) : ∃ ss v, DerivesBlock ss (w ++ v) := by
  cases h with
  | opening => exact ⟨[], _, _, .nil, rfl⟩
  | body h =>
      obtain ⟨ss, v, hss⟩ := h.exists_derivesAll
      exact ⟨ss, v ++ [.mark .closeBrace], _, hss, by simp⟩

theorem prompt_derives : Prompt Sentence.Derives Stratum.comparison.Ends := by
  rintro ⟨p, e⟩ ⟨p', e'⟩ _ _ x y ⟨u, hu, rfl⟩ ⟨v, hv, rfl⟩ heq hx hy
  obtain ⟨rfl, hvalue⟩ : p = p' ∧ u ++ x = v ++ y := by simpa using heq
  obtain ⟨rfl, rfl⟩ := Expr.prompt_derives hu hv hvalue hx hy
  exact ⟨rfl, rfl⟩

/-- **No sentence goes on where one breaks off.** -/
theorem Breaks.bars {w : List Token.Kind} {k : Token.Kind} (h : Breaks w k) :
    Bars Sentence.Derives Stratum.comparison.Ends (w ++ [k]) := by
  rintro s _ x ⟨v, hv, rfl⟩ hpre hx
  cases h with
  | target h =>
      obtain ⟨hk, -⟩ := List.cons_prefix_cons.1 hpre
      exact h _ hk
  | assign p h =>
      obtain ⟨-, hpre⟩ := List.cons_prefix_cons.1 hpre
      obtain ⟨hk, -⟩ := List.cons_prefix_cons.1 hpre
      exact h hk
  | value p h =>
      obtain ⟨-, hpre⟩ := List.cons_prefix_cons.1 hpre
      obtain ⟨-, hpre⟩ := List.cons_prefix_cons.1 hpre
      exact h.bars hv hpre hx

/-- The sentences of a block and its closing brace: there is none, or one and then the closing
brace or a semicolon and the other sentences. -/
theorem DerivesAll.closing_cases {ss : List Sentence} {w : List Token.Kind} (h : DerivesAll ss w)
    (x : List Token.Kind) : w = [] ∨ ∃ (s : Sentence) (u : List Token.Kind), s.Derives u ∧
      (w ++ .mark .closeBrace :: x = u ++ .mark .closeBrace :: x ∨
        ∃ ss' v, DerivesAll ss' v ∧
          w ++ .mark .closeBrace :: x =
            u ++ .mark .semicolon :: (v ++ .mark .closeBrace :: x)) := by
  cases h with
  | nil => exact .inl rfl
  | last head => exact .inr ⟨_, w, head, .inl rfl⟩
  | cons head tail => exact .inr ⟨_, _, head, .inr ⟨_, _, tail, by simp⟩⟩

section Blocks

variable {ss ss' : List Sentence} {v v' w x y : List Token.Kind} {k : Token.Kind}

/-- The sentences of a block end at its closing brace, and no others are spelled like them. -/
theorem DerivesAll.eq_of_closing (h : DerivesAll ss v) (h' : DerivesAll ss' v')
    (heq : v ++ .mark .closeBrace :: x = v' ++ .mark .closeBrace :: y) : ss = ss' ∧ v = v' := by
  have close := Stratum.comparison.ends_separator (m := .closeBrace) (by simp)
  have semicolon := Stratum.comparison.ends_separator (m := .semicolon) (by simp)
  induction h generalizing ss' v' with
  | nil =>
      cases h' with
      | nil => exact ⟨rfl, rfl⟩
      | last head | cons head =>
          obtain ⟨u, rfl⟩ := head.exists_cons
          simp at heq
  | last head =>
      cases h' with
      | nil =>
          obtain ⟨u, rfl⟩ := head.exists_cons
          simp at heq
      | last head' =>
          obtain ⟨rfl, rfl⟩ := prompt_derives head head' heq close close
          exact ⟨rfl, rfl⟩
      | cons head' =>
          rw [List.append_assoc] at heq
          obtain ⟨rfl, rfl⟩ := prompt_derives head head' heq close semicolon
          simp at heq
  | cons head tail ih =>
      rw [List.append_assoc] at heq
      cases h' with
      | nil =>
          obtain ⟨u, rfl⟩ := head.exists_cons
          simp at heq
      | last head' =>
          obtain ⟨rfl, rfl⟩ := prompt_derives head head' heq semicolon close
          simp at heq
      | cons head' tail' =>
          rw [List.append_assoc] at heq
          obtain ⟨rfl, rfl⟩ := prompt_derives head head' heq semicolon semicolon
          obtain ⟨rfl, rfl⟩ := ih tail' (List.cons.inj (List.append_cancel_left heq)).2
          exact ⟨rfl, rfl⟩

/-- **No block goes on where its sentences break off.** -/
theorem BreaksAll.not_starts (h : BreaksAll w k) (hv : DerivesAll ss v) :
    ¬ w ++ [k] <+: v ++ .mark .closeBrace :: x := by
  have close := Stratum.comparison.ends_separator (m := .closeBrace) (by simp)
  have semicolon := Stratum.comparison.ends_separator (m := .semicolon) (by simp)
  intro hpre
  induction h generalizing ss v with
  | @sentence w k h hclose =>
      rcases hv.closing_cases x with rfl | ⟨s', u, hu, heq | ⟨ss', v', -, heq⟩⟩
      · exact hclose (head?_of_starts hpre)
      · rw [heq] at hpre
        exact h.bars hu hpre close
      · rw [heq] at hpre
        exact h.bars hu hpre semicolon
  | @after s w k h ends hsemicolon hclose =>
      rcases hv.closing_cases x with rfl | ⟨s', u, hu, heq | ⟨ss', v', -, heq⟩⟩
      · obtain ⟨u, rfl⟩ := h.exists_cons
        simp at hpre
      · rw [heq] at hpre
        have hk := prompt_derives.cancel h hu hpre (List.cons_ne_nil k []) ends close
        exact hclose (List.cons_prefix_cons.1 hk).1
      · rw [heq] at hpre
        have hk := prompt_derives.cancel h hu hpre (List.cons_ne_nil k []) ends semicolon
        exact hsemicolon (List.cons_prefix_cons.1 hk).1
  | @cons s u₀ w k head _ ih =>
      rw [List.append_assoc] at hpre
      rcases hv.closing_cases x with rfl | ⟨s', u, hu, heq | ⟨ss', v', hv', heq⟩⟩
      · obtain ⟨u, rfl⟩ := head.exists_cons
        simp at hpre
      · rw [heq] at hpre
        have hk := prompt_derives.cancel head hu hpre (List.cons_ne_nil _ _) semicolon close
        simp at hk
      · rw [heq] at hpre
        have hk := prompt_derives.cancel head hu hpre (List.cons_ne_nil _ _) semicolon semicolon
        exact ih hv' (List.cons_prefix_cons.1 hk).2

end Blocks

theorem prompt_derivesBlock : Prompt DerivesBlock fun _ => True := by
  rintro ss ss' _ _ x y ⟨u, hu, rfl⟩ ⟨v, hv, rfl⟩ heq _ _
  obtain ⟨rfl, rfl⟩ := hu.eq_of_closing hv (x := x) (y := y) (by simpa using heq)
  exact ⟨rfl, rfl⟩

/-- A block may follow an expression. -/
theorem DerivesBlock.ends_next {ss : List Sentence} {w : List Token.Kind} (h : DerivesBlock ss w)
    (x : List Token.Kind) : Stratum.comparison.Ends (Token.Kind.next (w ++ x)) := by
  obtain ⟨v, -, rfl⟩ := h
  exact Stratum.comparison.ends_separator (by simp)

/-- **No block goes on where one breaks off.** -/
theorem BreaksBlock.bars {w : List Token.Kind} {k : Token.Kind} (h : BreaksBlock w k) :
    Bars DerivesBlock (fun _ => True) (w ++ [k]) := by
  rintro ss _ x ⟨v, hv, rfl⟩ hpre _
  cases h with
  | opening h => exact h (List.cons_prefix_cons.1 hpre).1
  | body h =>
      obtain ⟨-, hpre⟩ := List.cons_prefix_cons.1 hpre
      exact h.not_starts hv (by simpa using hpre)

end Sentence

/-! ### Programs that break off -/

namespace Segment

/-- **A segment breaks off.** -/
inductive Breaks : List Token.Kind → Token.Kind → Prop
  /-- A sentence breaks off, and no choice starts. -/
  | sentence {w : List Token.Kind} {k : Token.Kind} (h : Sentence.Breaks w k)
      (choice : (w ++ [k]).head? ≠ some (.mark .ifWord)) : Breaks w k
  /-- A sentence is followed by a semicolon. -/
  | semicolon {s : Sentence} {w : List Token.Kind} {k : Token.Kind} (h : s.Derives w)
      (ends : Stratum.comparison.Ends k) (semicolon : k ≠ .mark .semicolon) : Breaks w k
  /-- The test of a choice breaks off. -/
  | test {w : List Token.Kind} {k : Token.Kind} (h : Expr.Breaks .comparison w k) :
      Breaks (.mark .ifWord :: w) k
  /-- The first block breaks off. -/
  | thenBlock {e : Expr} {u w : List Token.Kind} {k : Token.Kind}
      (test : Expr.Derives .comparison e u)
      (ends : Stratum.comparison.Ends (Token.Kind.next (w ++ [k])))
      (h : Sentence.BreaksBlock w k) : Breaks (.mark .ifWord :: (u ++ w)) k
  /-- The first block is followed by the second keyword. -/
  | elseWord {e : Expr} {ss : List Sentence} {u v : List Token.Kind} {k : Token.Kind}
      (test : Expr.Derives .comparison e u) (block : Sentence.DerivesBlock ss v)
      (h : k ≠ .mark .elseWord) : Breaks (.mark .ifWord :: (u ++ v)) k
  /-- The second block breaks off. -/
  | elseBlock {e : Expr} {ss : List Sentence} {u v w : List Token.Kind} {k : Token.Kind}
      (test : Expr.Derives .comparison e u) (block : Sentence.DerivesBlock ss v)
      (h : Sentence.BreaksBlock w k) :
      Breaks (.mark .ifWord :: (u ++ (v ++ .mark .elseWord :: w))) k

/-- **A program breaks off**, after its complete segments and before its end. -/
inductive BreaksAll : List Token.Kind → Token.Kind → Prop
  | segment {w : List Token.Kind} {k : Token.Kind} (h : Breaks w k)
      (finish : (w ++ [k]).head? ≠ some .finish) : BreaksAll w k
  | cons {s : Segment} {u w : List Token.Kind} {k : Token.Kind} (head : s.Derives u)
      (tail : BreaksAll w k) : BreaksAll (u ++ w) k

/-- What is left of a choice after its first block can be empty. -/
theorem exists_derives_choice {e : Expr} {ss : List Sentence} {u v : List Token.Kind}
    (test : Expr.Derives .comparison e u) (block : Sentence.DerivesBlock ss v) :
    ∃ (s : Segment) (x : List Token.Kind), s.Derives (.mark .ifWord :: (u ++ (v ++ x))) :=
  ⟨_, _, .condition test block ⟨[], .nil, rfl⟩⟩

theorem Breaks.exists_derives {w : List Token.Kind} {k : Token.Kind} (h : Breaks w k) :
    ∃ (s : Segment) (v : List Token.Kind), s.Derives (w ++ v) := by
  cases h with
  | sentence h =>
      obtain ⟨s, v, hs⟩ := h.exists_derives
      have hsegment := Derives.sentence hs
      exact ⟨_, v ++ [.mark .semicolon], by simpa using hsegment⟩
  | semicolon h => exact ⟨_, _, .sentence h⟩
  | test h =>
      obtain ⟨e, v, he⟩ := h.exists_derives
      obtain ⟨s, x, hs⟩ := exists_derives_choice he ⟨[], .nil, rfl⟩
      exact ⟨s, v ++ (.mark .openBrace :: .mark .closeBrace :: x), by simpa using hs⟩
  | thenBlock ht _ h =>
      obtain ⟨ss, v, hv⟩ := h.exists_derivesBlock
      obtain ⟨s, x, hs⟩ := exists_derives_choice ht hv
      exact ⟨s, v ++ x, by simpa using hs⟩
  | elseWord ht hv =>
      obtain ⟨s, x, hs⟩ := exists_derives_choice ht hv
      exact ⟨s, x, by simpa using hs⟩
  | elseBlock ht hv h =>
      obtain ⟨ss, v, hw⟩ := h.exists_derivesBlock
      have hsegment := Derives.condition ht hv hw
      exact ⟨_, v, by simpa using hsegment⟩

/-- **A program that breaks off can be completed.** -/
theorem BreaksAll.exists_derivesAll {w : List Token.Kind} {k : Token.Kind} (h : BreaksAll w k) :
    ∃ ss v, DerivesAll ss (w ++ v) := by
  induction h with
  | segment h =>
      obtain ⟨s, v, hs⟩ := h.exists_derives
      have hall := DerivesAll.cons hs .nil
      exact ⟨[s], v, by simpa using hall⟩
  | cons head _ ih =>
      obtain ⟨ss, v, hss⟩ := ih
      have hall := DerivesAll.cons head hss
      exact ⟨_, v, by simpa using hall⟩

theorem prompt_derives : Prompt Segment.Derives fun _ => True := by
  have semicolon := Stratum.comparison.ends_separator (m := .semicolon) (by simp)
  intro s s' u v x y hs hs' heq _ _
  cases hs with
  | sentence h =>
      cases hs' with
      | sentence h' =>
          simp only [List.append_assoc, List.singleton_append] at heq
          obtain ⟨rfl, rfl⟩ := Sentence.prompt_derives h h' heq semicolon semicolon
          exact ⟨rfl, rfl⟩
      | condition =>
          obtain ⟨u, rfl⟩ := h.exists_cons
          simp at heq
  | condition ht hv hw =>
      cases hs' with
      | sentence h' =>
          obtain ⟨u, rfl⟩ := h'.exists_cons
          simp at heq
      | condition ht' hv' hw' =>
          simp only [List.cons_append, List.append_assoc, List.cons.injEq, true_and] at heq
          obtain ⟨rfl, rfl⟩ := Expr.prompt_derives ht ht' heq (hv.ends_next _) (hv'.ends_next _)
          have heq := List.append_cancel_left heq
          obtain ⟨rfl, rfl⟩ := Sentence.prompt_derivesBlock hv hv' heq trivial trivial
          have heq := (List.cons.inj (List.append_cancel_left heq)).2
          obtain ⟨rfl, rfl⟩ := Sentence.prompt_derivesBlock hw hw' heq trivial trivial
          exact ⟨rfl, rfl⟩

/-- **No segment goes on where one breaks off.** -/
theorem Breaks.bars {w : List Token.Kind} {k : Token.Kind} (h : Breaks w k) :
    Bars Segment.Derives (fun _ => True) (w ++ [k]) := by
  have semicolon := Stratum.comparison.ends_separator (m := .semicolon) (by simp)
  intro s u x hs hpre _
  cases hs with
  | sentence hs =>
      rw [List.append_assoc] at hpre
      cases h with
      | sentence h => exact h.bars hs hpre semicolon
      | semicolon h ends hne =>
          have hk := Sentence.prompt_derives.cancel h hs hpre (List.cons_ne_nil k []) ends semicolon
          exact hne (List.cons_prefix_cons.1 hk).1
      | test | thenBlock | elseWord | elseBlock =>
          obtain ⟨u, rfl⟩ := hs.exists_cons
          simp at hpre
  | condition ht hv hw =>
      simp only [List.cons_append, List.append_assoc] at hpre
      cases h with
      | sentence h choice => exact choice (head?_of_starts hpre)
      | semicolon h =>
          obtain ⟨u, rfl⟩ := h.exists_cons
          simp at hpre
      | test h => exact h.bars ht (List.cons_prefix_cons.1 hpre).2 (hv.ends_next _)
      | thenBlock ht' ends h =>
          simp only [List.cons_append, List.append_assoc] at hpre
          have hpre := Expr.prompt_derives.cancel ht' ht (List.cons_prefix_cons.1 hpre).2 (by simp)
            ends (hv.ends_next _)
          exact h.bars hv hpre trivial
      | elseWord ht' hv' h =>
          simp only [List.cons_append, List.append_assoc] at hpre
          have hpre := Expr.prompt_derives.cancel ht' ht (List.cons_prefix_cons.1 hpre).2 (by simp)
            (hv'.ends_next _) (hv.ends_next _)
          have hk := Sentence.prompt_derivesBlock.cancel hv' hv hpre (List.cons_ne_nil k []) trivial
            trivial
          exact h (List.cons_prefix_cons.1 hk).1
      | elseBlock ht' hv' h =>
          simp only [List.cons_append, List.append_assoc] at hpre
          have hpre := Expr.prompt_derives.cancel ht' ht (List.cons_prefix_cons.1 hpre).2 (by simp)
            (hv'.ends_next _) (hv.ends_next _)
          have hpre := Sentence.prompt_derivesBlock.cancel hv' hv hpre (by simp) trivial trivial
          exact h.bars hw (List.cons_prefix_cons.1 hpre).2 trivial

/-- A segment has at least one token. -/
theorem Derives.ne_nil {s : Segment} {w : List Token.Kind} (h : s.Derives w) : w ≠ [] := by
  cases h <;> simp

/-- **No program goes on where one breaks off.** -/
theorem BreaksAll.not_starts {w v : List Token.Kind} {k : Token.Kind} {ss : List Segment}
    (h : BreaksAll w k) (hv : DerivesAll ss v) : ¬ w ++ [k] <+: v ++ [.finish] := by
  intro hpre
  induction h generalizing ss v with
  | segment h finish =>
      cases hv with
      | nil => exact finish (head?_of_starts hpre)
      | cons head =>
          rw [List.append_assoc] at hpre
          exact h.bars head hpre trivial
  | @cons s u w k head _ ih =>
      rw [List.append_assoc] at hpre
      cases hv with
      | nil =>
          have hle := hpre.length_le
          have hpos := List.length_pos_of_ne_nil head.ne_nil
          simp only [List.length_append, List.length_singleton, List.nil_append] at hle
          omega
      | cons head' =>
          rename_i tail
          rw [List.append_assoc] at hpre
          exact ih tail (prompt_derives.cancel head head' hpre (by simp) trivial trivial)

/-- The segments of a program are told apart. -/
theorem DerivesAll.unique {ss ss' : List Segment} {w : List Token.Kind} (h : DerivesAll ss w)
    (h' : DerivesAll ss' w) : ss = ss' := by
  generalize heq : w = w' at h'
  induction h generalizing ss' w' with
  | nil =>
      cases h' with
      | nil => rfl
      | cons head => exact absurd (List.append_eq_nil_iff.1 heq.symm).1 head.ne_nil
  | cons head _ ih =>
      cases h' with
      | nil => exact absurd (List.append_eq_nil_iff.1 heq).1 head.ne_nil
      | cons head' tail' =>
          obtain ⟨rfl, rfl⟩ := prompt_derives head head' heq trivial trivial
          rw [ih _ (List.append_cancel_left heq) tail']

end Segment

/-- **No two programs have one spelling.** -/
theorem Program.Derives.unique {p p' : Program} {w : List Token.Kind} (h : p.Derives w)
    (h' : p'.Derives w) : p = p' :=
  congrArg Program.mk (Segment.DerivesAll.unique h h')

end RigScript
