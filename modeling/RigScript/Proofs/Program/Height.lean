import RigScript.Proofs.Program.Faults

/-!
# How high expressions grow

The limit on nesting bounds how deep signs, calls and brackets nest, not how high the tree of an
expression is: a chain of operators grows a tree to the left for as long as it goes on, at one depth
of nesting. Within each depth there are three strata of operators, so the height is bounded by the
limit and by the longest chain. A script that spells a program nested deeper than the limit is
refused for that reason and no other.

## Main definitions

* `RigScript.Expr.height`: the height of an expression, where every constructor counts
* `RigScript.Expr.chain`: the length of the longest chain of operators of one stratum

## Main results

* `RigScript.Expr.Derives.height_le`: nesting and chains bound the height
* `RigScript.Program.height_unbounded`: the height of expressions has no bound
* `RigScript.Program.parse_bounds_height`: what the limit on nesting bounds and what it refuses
-/

namespace RigScript

namespace Expr

/-! ### Heights and chains -/

mutual

/-- The height of an expression as a tree. Every constructor counts. -/
def height : Expr → Nat
  | .number _ => 1
  | .path _ => 1
  | .unary _ e => e.height + 1
  | .binary _ l r => max l.height r.height + 1
  | .call _ args => heightAll args + 1
  | .brackets e => e.height + 1

/-- The greatest height in a list of expressions. -/
def heightAll : List Expr → Nat
  | [] => 0
  | e :: es => max e.height (heightAll es)

end

/-- How many operators of a stratum follow one another, from the root along left operands. -/
def run (s : Stratum) : Expr → Nat
  | .binary op l _ => if op.stratum = s then l.run s + 1 else 0
  | _ => 0

mutual

/-- The length of the longest chain of operators of one stratum in an expression. -/
def chain : Expr → Nat
  | .number _ => 0
  | .path _ => 0
  | .unary _ e => e.chain
  | .binary op l r => max (l.run op.stratum + 1) (max l.chain r.chain)
  | .call _ args => chainAll args
  | .brackets e => e.chain

/-- The length of the longest chain in a list of expressions. -/
def chainAll : List Expr → Nat
  | [] => 0
  | e :: es => max e.chain (chainAll es)

end

theorem heightAll_le_iff {es : List Expr} {n : Nat} :
    heightAll es ≤ n ↔ ∀ e ∈ es, e.height ≤ n := by
  induction es with
  | nil => simp [heightAll]
  | cons e es ih => simp only [heightAll, Nat.max_le, List.forall_mem_cons, ih]

theorem chainAll_le_iff {es : List Expr} {n : Nat} :
    chainAll es ≤ n ↔ ∀ e ∈ es, e.chain ≤ n := by
  induction es with
  | nil => simp [chainAll]
  | cons e es ih => simp only [chainAll, Nat.max_le, List.forall_mem_cons, ih]

theorem run_le_chain (s : Stratum) (e : Expr) : e.run s ≤ e.chain := by
  cases e with
  | binary op l r =>
      by_cases hs : op.stratum = s
      · rw [run, if_pos hs, chain, ← hs]
        exact Nat.le_max_left _ _
      · rw [run, if_neg hs]
        exact Nat.zero_le _
  | _ => exact Nat.zero_le _

/-- No operator joins signed operands or primary ones into a chain of their own. -/
theorem run_eq_zero {s : Stratum} (hs : Stratum.unary.rank ≤ s.rank) (e : Expr) :
    e.run s = 0 := by
  cases e with
  | binary op l r =>
      have hlt := op.rank_stratum_lt_unary
      have hne : op.stratum ≠ s := by
        rintro rfl
        omega
      rw [run, if_neg hne]
  | _ => rfl

/-! ### Nesting and chains bound the height -/

/-- How high an operand of a chain of a stratum can be, if signs, calls and brackets nest up to `d`
deep in it and no chain is longer than `n`: each depth holds one constructor that nests and a chain
of each stratum, and the operand has the chains of the tighter strata left. -/
def reach (n d : Nat) (s : Stratum) : Nat :=
  (3 * n + 1) * d + ((2 - s.rank) * n + 1)

/-- An expression of the next stratum is no higher than an operand may be. -/
theorem height_le_reach_of_next {s : Stratum} {e : Expr} {n d : Nat} (hchain : e.chain ≤ n)
    (h : e.height ≤ e.run s.next + reach n d s.next) : e.height ≤ reach n d s := by
  have hrun := (run_le_chain s.next e).trans hchain
  have hunary := run_eq_zero (s := .unary) (by decide) e
  have hprimary := run_eq_zero (s := .primary) (by decide) e
  cases s <;> simp only [reach, Stratum.next, Stratum.rank] at * <;> omega

/-- What a sign, a call or brackets hold is as high as one depth more allows. -/
theorem height_lt_reach_of_comparison {e : Expr} {n d : Nat} (hchain : e.chain ≤ n)
    (h : e.height ≤ e.run .comparison + reach n d .comparison) :
    e.height < reach n (d + 1) .primary := by
  have hrun := (run_le_chain .comparison e).trans hchain
  have hdepth : (3 * n + 1) * (d + 1) = (3 * n + 1) * d + (3 * n + 1) := Nat.mul_succ _ _
  simp only [reach, Stratum.rank] at h ⊢
  omega

/-- An expression of a stratum is as high as one of its operands may be, and higher by the operators
that join them. -/
theorem Derives.height_le_run {s : Stratum} {e : Expr} {w : List Token.Kind} (h : Derives s e w)
    {n d : Nat} (hchain : e.chain ≤ n) (hnest : e.nest ≤ d) :
    e.height ≤ e.run s + reach n d s := by
  -- Calls, brackets and signs use up a depth. An operator uses up none, but the run of its left
  -- side goes on over it.
  induction h generalizing d with
  | number | path =>
      simp only [height, reach]
      omega
  | call f args _ _ ih =>
      obtain ⟨d, rfl⟩ := Nat.exists_eq_add_one.2 (Nat.lt_of_lt_of_le (Nat.succ_pos _) hnest)
      rw [nest, Nat.add_le_add_iff_right, nestAll_le_iff] at hnest
      rw [chain, chainAll_le_iff] at hchain
      have hargs : heightAll (args.map Prod.fst) ≤ reach n (d + 1) .primary - 1 := by
        refine heightAll_le_iff.2 fun e he => ?_
        obtain ⟨a, ha, rfl⟩ := List.mem_map.1 he
        exact Nat.le_pred_of_lt (height_lt_reach_of_comparison (hchain _ he)
          (ih a ha (hchain _ he) (hnest _ he)))
      have hpos : 0 < reach n (d + 1) .primary := Nat.succ_pos _
      rw [height]
      omega
  | brackets _ ih =>
      obtain ⟨d, rfl⟩ := Nat.exists_eq_add_one.2 (Nat.lt_of_lt_of_le (Nat.succ_pos _) hnest)
      rw [chain] at hchain
      have hlt := height_lt_reach_of_comparison hchain (ih hchain (Nat.le_of_succ_le_succ hnest))
      rw [height]
      omega
  | unary op _ ih =>
      obtain ⟨d, rfl⟩ := Nat.exists_eq_add_one.2 (Nat.lt_of_lt_of_le (Nat.succ_pos _) hnest)
      have hoperand := ih hchain (Nat.le_of_succ_le_succ hnest)
      have hdepth : (3 * n + 1) * (d + 1) = (3 * n + 1) * d + (3 * n + 1) := Nat.mul_succ _ _
      rw [run_eq_zero (Nat.le_refl _)] at hoperand ⊢
      simp only [height, reach] at hoperand ⊢
      omega
  | binary op _ _ ihl ihr =>
      obtain ⟨hl, hr⟩ := Nat.max_le.1 hnest
      rw [chain, Nat.max_le, Nat.max_le] at hchain
      have hleft := ihl hchain.2.1 hl
      have hright := height_le_reach_of_next hchain.2.2 (ihr hchain.2.2 hr)
      rw [height, run, if_pos rfl]
      omega
  | operand s _ ih =>
      have hle := height_le_reach_of_next hchain (ih hchain hnest)
      omega

/-- **Nesting and chains bound the height of an expression.** -/
theorem Derives.height_le {e : Expr} {w : List Token.Kind} (h : Derives .comparison e w) {d : Nat}
    (hnest : e.nest ≤ d) : e.height ≤ (d + 1) * (3 * e.chain + 1) := by
  have hlt := height_lt_reach_of_comparison (Nat.le_refl _) (h.height_le_run (Nat.le_refl _) hnest)
  rw [reach, Nat.mul_comm] at hlt
  simp only [Stratum.rank] at hlt
  omega

end Expr

/-! ### The expressions of a program -/

theorem Sentence.DerivesAll.exists_derives {ss : List Sentence} {w : List Token.Kind}
    (h : DerivesAll ss w) : ∀ s ∈ ss, ∃ v, Expr.Derives .comparison s.value v := by
  induction h with
  | nil => simp
  | last head =>
      obtain ⟨v, hv, -⟩ := head
      exact List.forall_mem_singleton.2 ⟨v, hv⟩
  | cons head _ ih =>
      obtain ⟨v, hv, -⟩ := head
      exact List.forall_mem_cons.2 ⟨⟨v, hv⟩, ih⟩

theorem Segment.Derives.exists_derives {s : Segment} {w : List Token.Kind} (h : s.Derives w) :
    ∀ e ∈ s.exprs, ∃ v, Expr.Derives .comparison e v := by
  cases h with
  | sentence h =>
      obtain ⟨v, hv, -⟩ := h
      exact List.forall_mem_singleton.2 ⟨v, hv⟩
  | condition ht hv hw =>
      obtain ⟨v, hv, -⟩ := hv
      obtain ⟨w, hw, -⟩ := hw
      simp only [exprs, List.forall_mem_cons, List.forall_mem_append, List.forall_mem_map]
      exact ⟨⟨_, ht⟩, hv.exists_derives, hw.exists_derives⟩

theorem Segment.DerivesAll.exists_derives {ss : List Segment} {w : List Token.Kind}
    (h : DerivesAll ss w) : ∀ s ∈ ss, ∃ v, s.Derives v := by
  induction h with
  | nil => simp
  | cons head _ ih => exact List.forall_mem_cons.2 ⟨⟨_, head⟩, ih⟩

/-- Every expression of a program has a spelling. -/
theorem Program.Derives.exists_derives {p : Program} {w : List Token.Kind} (h : p.Derives w) :
    ∀ e ∈ p.exprs, ∃ v, Expr.Derives .comparison e v := by
  intro e he
  obtain ⟨s, hs, he⟩ := List.mem_flatMap.1 he
  obtain ⟨v, hv⟩ := Segment.DerivesAll.exists_derives h s hs
  exact hv.exists_derives e he

/-! ### Scripts of one assignment -/

namespace Token

/-- A token with its spelling after one space. -/
def Placed.Spaced (u : Placed) : Prop :=
  u.gap = " " ∧ Spells u.text.toList u.kind

/-- The path `a.b`. -/
def Placed.operand : Placed := ⟨" ", "a.b", .path "a.b"⟩

/-- A mark. -/
def Placed.ofMark (m : Mark) : Placed := ⟨" ", String.ofList m.spelling, .mark m⟩

theorem Placed.spaced_operand : operand.Spaced :=
  ⟨rfl, @Spells.path ['a'] [] 'b' (by simp) (by simp) (by simp)⟩

theorem Placed.spaced_ofMark (m : Mark) : (ofMark m).Spaced :=
  ⟨rfl, by rw [ofMark, String.toList_ofList]; exact .mark m⟩

/-- The tokens of an assignment of a value to the path. -/
def assignment (value : List Placed) : List Placed :=
  .operand :: .ofMark .assign :: (value ++ [.ofMark .semicolon])

/-- The script of an assignment spells it. -/
theorem exists_lex_assignment {value : List Placed} {e : Expr} (spaced : ∀ u ∈ value, u.Spaced)
    (derives : Expr.Derives .comparison e (value.map Placed.kind)) :
    ∃ tokens w, lex (spread (assignment value) "") = .ok tokens ∧
      tokens.map Token.kind = w ++ [.finish] ∧ Program.Derives ⟨[.sentence ⟨"a.b", e⟩]⟩ w := by
  have hspace : Separator " ".toList := ⟨' ', [], rfl, by simp, .nil⟩
  have hall : ∀ u ∈ assignment value, u.Spaced :=
    List.forall_mem_cons.2 ⟨Placed.spaced_operand, List.forall_mem_cons.2
      ⟨Placed.spaced_ofMark _, List.forall_mem_append.2
        ⟨spaced, List.forall_mem_singleton.2 (Placed.spaced_ofMark _)⟩⟩⟩
  have hgap : ∀ u ∈ assignment value, Separator u.gap.toList :=
    fun u hu => (hall u hu).1 ▸ hspace
  obtain ⟨tokens, hlex, hkinds⟩ := exists_lex_spread (fun u hu => (hall u hu).2)
    (fun u hu => (hgap u (List.mem_of_mem_head? hu)).filler)
    (fun u hu => hgap u (List.mem_of_mem_tail hu)) (.inl rfl) 0
  have hsegment := Segment.Derives.sentence (s := ⟨"a.b", e⟩) ⟨_, derives, rfl⟩
  have hprogram := Segment.DerivesAll.cons hsegment .nil
  refine ⟨tokens, _, hlex, hkinds, ?_⟩
  simpa [assignment, Placed.operand, Placed.ofMark, Program.Derives] using hprogram

end Token

/-! ### Chains without end -/

/-- The path and `n` copies of it added to it. -/
def Expr.sums : Nat → Expr
  | 0 => .path "a.b"
  | n + 1 => .binary .add (sums n) (.path "a.b")

/-- The tokens of such a sum. -/
def Token.sums : Nat → List Token.Placed
  | 0 => [.operand]
  | n + 1 => sums n ++ [.ofMark .plus, .operand]

theorem Token.spaced_sums (n : Nat) : ∀ u ∈ Token.sums n, u.Spaced := by
  induction n with
  | zero => exact List.forall_mem_singleton.2 Placed.spaced_operand
  | succ n ih =>
      refine List.forall_mem_append.2 ⟨ih, List.forall_mem_cons.2 ⟨Placed.spaced_ofMark _, ?_⟩⟩
      exact List.forall_mem_singleton.2 Placed.spaced_operand

theorem Expr.derives_sums (n : Nat) :
    Derives .sum (sums n) ((Token.sums n).map Token.Placed.kind) := by
  induction n with
  | zero => exact (Derives.path "a.b").of_primary .sum
  | succ n ih =>
      rw [Token.sums, List.map_append]
      exact ih.binary .add ((Derives.path "a.b").of_primary .product)

theorem Expr.nest_sums (n : Nat) : (sums n).nest = 0 := by
  induction n with
  | zero => rfl
  | succ n ih => simp [sums, nest, ih]

theorem Expr.height_sums (n : Nat) : (sums n).height = n + 1 := by
  induction n with
  | zero => rfl
  | succ n ih => simp [sums, height, ih]

/-- **The height of the expressions that are read has no bound**: a sum may have any number of
terms, and the tree grows with each of them. -/
theorem Program.height_unbounded :
    ¬ ∃ B, ∀ src p, Program.parse src = .ok p → ∀ e ∈ p.exprs, e.height ≤ B := by
  rintro ⟨B, hB⟩
  obtain ⟨tokens, w, hlex, hkinds, hderives⟩ := Token.exists_lex_assignment (Token.spaced_sums B)
    (.operand .comparison (Expr.derives_sums B))
  have hexprs : Program.exprs ⟨[.sentence ⟨"a.b", Expr.sums B⟩]⟩ = [Expr.sums B] := rfl
  have hparse := (Program.parse_iff_derives _ _).2 ⟨tokens, w, hlex, hkinds, hderives, by
    simp [hexprs, Expr.nest_sums]⟩
  have hle := hB _ _ hparse (Expr.sums B) (by simp [hexprs])
  rw [Expr.height_sums] at hle
  omega

/-! ### What the limit on nesting does -/

/-- A script that spells a program nested deeper than the limit is refused for it: any other fault
would be found at a token that no program goes on with. -/
theorem Program.parse_of_nested {src : String} {tokens : List Token} {w : List Token.Kind}
    {p : Program} (hlex : Token.lex src = .ok tokens)
    (hkinds : tokens.map Token.kind = w ++ [.finish]) (hp : p.Derives w)
    (hdeep : ∃ e ∈ p.exprs, maxNesting < e.nest) :
    ∃ err, Program.parse src = .error err ∧ err.fault = .nestedTooDeep := by
  cases hparse : Program.parse src with
  | ok p' =>
      obtain ⟨tokens', w', hlex', hkinds', hp', hnest⟩ :=
        (Program.parse_iff_derives src p').1 hparse
      obtain rfl : tokens = tokens' := Except.ok.inj (hlex.symm.trans hlex')
      obtain rfl : w = w' := List.append_cancel_right (hkinds.symm.trans hkinds')
      obtain rfl := hp.unique hp'
      obtain ⟨e, he, hlt⟩ := hdeep
      exact absurd (hnest e he) (Nat.not_le.2 hlt)
  | error err =>
      refine ⟨err, rfl, ?_⟩
      obtain ⟨stop, rfl, hstop | ⟨tokens', hlex', hstop⟩⟩ := Program.parse_eq_error hparse
      · rw [hlex] at hstop
        cases hstop
      obtain rfl : tokens = tokens' := Except.ok.inj (hlex.symm.trans hlex')
      obtain ⟨pre, t, post, rfl, -, hbreaks⟩ :=
        Segment.parseAll_stops hstop (Token.finish_mem_of_lex hlex)
      -- Otherwise the tokens up to the stop could not start the spelling of the program.
      by_contra hfault
      refine (hbreaks hfault).not_starts hp ?_
      rw [← hkinds, List.map_append, List.map_cons]
      exact (List.prefix_append_right_inj _).2 (by simp)

/-- **What the limit on nesting bounds and what it refuses.** In a program that is read, no
expression nests signs, calls and brackets more than 128 deep, and its height is at most 129 times
what one depth can hold: a chain of each of the three strata and one more constructor. A script that
spells a program nested deeper is refused, because of the nesting. -/
theorem Program.parse_bounds_height (src : String) :
    (∀ p, Program.parse src = .ok p → ∀ e ∈ p.exprs,
      e.nest ≤ 128 ∧ e.height ≤ 129 * (3 * e.chain + 1)) ∧
    ∀ tokens w p, Token.lex src = .ok tokens → tokens.map Token.kind = w ++ [.finish] →
      Program.Derives p w → (∃ e ∈ p.exprs, 128 < e.nest) →
        ∃ err, Program.parse src = .error err ∧ err.fault = .nestedTooDeep := by
  refine ⟨fun p hp e he => ?_, fun tokens w p hlex hkinds hderives hdeep =>
    Program.parse_of_nested hlex hkinds hderives hdeep⟩
  obtain ⟨tokens, w, -, -, hderives, hnest⟩ := (Program.parse_iff_derives src p).1 hp
  obtain ⟨v, hv⟩ := Program.Derives.exists_derives hderives e he
  exact ⟨hnest e he, hv.height_le (hnest e he)⟩

/-- Signs in front of the path. -/
def Expr.signs : Nat → Expr
  | 0 => .path "a.b"
  | n + 1 => .unary .minus (signs n)

/-- The tokens of the path and the signs in front of it. -/
def Token.signs : Nat → List Token.Placed
  | 0 => [.operand]
  | n + 1 => .ofMark .minus :: signs n

theorem Token.spaced_signs (n : Nat) : ∀ u ∈ Token.signs n, u.Spaced := by
  induction n with
  | zero => exact List.forall_mem_singleton.2 Placed.spaced_operand
  | succ n ih => exact List.forall_mem_cons.2 ⟨Placed.spaced_ofMark _, ih⟩

theorem Expr.derives_signs (n : Nat) :
    Derives .unary (signs n) ((Token.signs n).map Token.Placed.kind) := by
  induction n with
  | zero => exact (Derives.path "a.b").of_primary .unary
  | succ n ih => exact ih.unary .minus

theorem Expr.nest_signs (n : Nat) : (signs n).nest = n := by
  induction n with
  | zero => rfl
  | succ n ih => simp [signs, nest, ih]

/-- A program with two levels of nesting and a chain of two operators, and a script with one sign
too many. -/
theorem Program.parse_bounds_height_signs :
    (∃ p, Program.parse "a.b = -(a.c + 2 * 3) == max(4, 5 - 6 - a.d);" = .ok p ∧
      p.exprs.map (fun e => (e.nest, e.height, e.chain)) = [(2, 6, 2)] ∧
      ∀ e ∈ p.exprs, e.nest ≤ 128 ∧ e.height ≤ 129 * (3 * e.chain + 1)) ∧
    ∃ err, Program.parse (Token.spread (Token.assignment (Token.signs 129)) "") = .error err ∧
      err.fault = .nestedTooDeep := by
  refine ⟨?_, ?_⟩
  · have hread : (Program.parse "a.b = -(a.c + 2 * 3) == max(4, 5 - 6 - a.d);").toOption.map
        (fun p => p.exprs.map fun e => (e.nest, e.height, e.chain)) = some [(2, 6, 2)] := by
      decide +kernel
    cases hparse : Program.parse "a.b = -(a.c + 2 * 3) == max(4, 5 - 6 - a.d);" with
    | error err => rw [hparse] at hread; cases hread
    | ok p =>
        rw [hparse] at hread
        exact ⟨p, rfl, Option.some.inj hread, (Program.parse_bounds_height _).1 p hparse⟩
  · obtain ⟨tokens, w, hlex, hkinds, hderives⟩ :=
      Token.exists_lex_assignment (Token.spaced_signs 129)
        (.operand .comparison (.operand .sum (.operand .product (Expr.derives_signs 129))))
    refine (Program.parse_bounds_height _).2 tokens w _ hlex hkinds hderives
      ⟨Expr.signs 129, List.mem_singleton_self _, ?_⟩
    rw [Expr.nest_signs]
    decide

end RigScript
