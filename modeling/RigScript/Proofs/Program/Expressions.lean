import RigScript.Program.Parser
import RigScript.Proofs.Program.Grammar

/-!
# Reading expressions

What a parser does with the tokens that spell a tree, in two halves. A parser *reads* a relation
if whatever it returns is spelled by the tokens it has stepped over. It *takes* the spelling of a
tree if it steps over exactly those tokens and returns that tree, whatever token follows that
satisfies a condition. Both halves go through sequences of parsers, through chains of operators and
through lists of arguments, and with them through the whole expression grammar.

## Main definitions

* `RigScript.Parser.Reads`: what is returned is spelled by the tokens stepped over
* `RigScript.Parser.Takes`: the tokens of a spelling are stepped over and give its tree
* `RigScript.Stratum.parser`: the parser of a stratum at a level of nesting

## Main results

* `RigScript.Stratum.parser_reads`: a stratum's parser returns only what its tokens spell
* `RigScript.Stratum.parser_takes`: it returns everything that they spell, up to its depth
* `RigScript.Expr.Derives.unique`: no two expressions have one spelling
-/

namespace RigScript

namespace Parser

variable {α β : Type}

/-! ### Reading and taking -/

/-- Whatever the parser returns is spelled by the tokens it has stepped over. -/
def Reads (p : Parser α) (spells : α → List Token.Kind → Prop) : Prop :=
  ∀ ⦃ts : List Token⦄ ⦃a : α⦄ ⦃rest : List Token⦄, p ts = .ok (a, rest) →
    ∃ pre, ts = pre ++ rest ∧ spells a (pre.map Token.kind)

/-- Given tokens that spell `w`, and after them one that satisfies `follow`, the parser steps over
the former and returns `a`. -/
def Takes (p : Parser α) (follow : Token.Kind → Prop) (a : α) (w : List Token.Kind) : Prop :=
  ∀ ⦃pre rest : List Token⦄, pre.map Token.kind = w → follow (peek rest) →
    p (pre ++ rest) = .ok (a, rest)

/-- The first token of a text in front of others is the first of the text, if it has one. -/
theorem peek_append (pre rest : List Token) :
    peek (pre ++ rest) = (pre.map Token.kind).head?.getD (peek rest) := by
  cases pre <;> rfl

theorem Reads.mono {p : Parser α} {R S : α → List Token.Kind → Prop} (h : p.Reads R)
    (hRS : ∀ a w, R a w → S a w) : p.Reads S := by
  intro ts a rest hp
  obtain ⟨pre, hts, hR⟩ := h hp
  exact ⟨pre, hts, hRS _ _ hR⟩

theorem pure_reads {R : α → List Token.Kind → Prop} {a : α} (h : R a []) :
    Reads (pure a : Parser α) R := by
  intro ts b rest hp
  cases hp
  exact ⟨[], rfl, h⟩

/-- What follows a parser in a sequence continues the spelling of what the parser returned. -/
theorem Reads.bind {p : Parser α} {f : α → Parser β} {R : α → List Token.Kind → Prop}
    {S : β → List Token.Kind → Prop} (hp : p.Reads R)
    (hf : ∀ a u, R a u → (f a).Reads fun b v => S b (u ++ v)) : (p >>= f).Reads S := by
  intro ts b rest h
  obtain ⟨a, mid, h₁, h₂⟩ := bind_eq_ok h
  obtain ⟨pre, rfl, hR⟩ := hp h₁
  obtain ⟨pre', rfl, hS⟩ := hf a _ hR h₂
  exact ⟨pre ++ pre', (List.append_assoc ..).symm, by rwa [List.map_append]⟩

theorem expect_reads (m : Mark) : (expect m).Reads fun _ w => w = [.mark m] := by
  intro ts a rest h
  unfold expect at h
  split at h
  · next t ts' =>
    split at h
    · next hk => cases h; exact ⟨[t], rfl, by simp [hk]⟩
    · cases h
  · cases h

theorem stopAt_reads (fault : List Token → SyntaxFault) (R : α → List Token.Kind → Prop) :
    (stopAt fault : Parser α).Reads R := by
  intro ts a rest h
  cases h

theorem pure_takes (follow : Token.Kind → Prop) (a : α) :
    Takes (pure a : Parser α) follow a [] := by
  intro pre rest hw _
  obtain rfl := List.map_eq_nil_iff.1 hw
  rfl

/-- A sequence of parsers takes a spelling piece by piece, if the token after the first piece is
one that may follow it. -/
theorem Takes.bind {p : Parser α} {f : α → Parser β} {F G : Token.Kind → Prop} {a : α} {b : β}
    {u v : List Token.Kind} (hp : p.Takes F a u) (hf : (f a).Takes G b v)
    (follows : ∀ k, G k → F (v.head?.getD k)) : (p >>= f).Takes G b (u ++ v) := by
  intro pre rest hw hG
  obtain ⟨pre₁, pre₂, rfl, rfl, rfl⟩ := List.map_eq_append_iff.1 hw
  have h₁ : p (pre₁ ++ (pre₂ ++ rest)) = .ok (a, pre₂ ++ rest) :=
    hp rfl (by rw [peek_append]; exact follows _ hG)
  simp only [Bind.bind, StateT.bind, List.append_assoc, h₁]
  exact hf rfl hG

theorem expect_takes (m : Mark) : (expect m).Takes (fun _ => True) () [.mark m] := by
  intro pre rest hw _
  obtain ⟨t, ts, rfl, hk, hts⟩ := List.map_eq_cons_iff.1 hw
  obtain rfl := List.map_eq_nil_iff.1 hts
  simp [expect, hk]

/-! ### Chains of operators -/

section Chain

variable {operator? : Mark → Option BinaryOp} {operand : Parser Expr} {progress : operand.Consumes}

/-- A chain reads a relation that its operators extend to the right. -/
theorem chainFrom_reads {P Q : Expr → List Token.Kind → Prop} (hQ : operand.Reads Q)
    (extend : ∀ m op l u r v, operator? m = some op → P l u → Q r v →
      P (.binary op l r) (u ++ .mark m :: v))
    {left : Expr} {u : List Token.Kind} (hP : P left u) :
    Reads (chainFrom operator? operand progress left) fun e w => P e (u ++ w) := by
  intro ts e rest h
  fun_induction chainFrom operator? operand progress left ts generalizing u with
  | case1 => cases h; exact ⟨[], rfl, by simpa using hP⟩
  | case2 left t ts' m hk op hop right mid hmid ih =>
    -- The chain so far becomes the left side of the next operator.
    obtain ⟨pre, rfl, hr⟩ := hQ hmid
    obtain ⟨pre', rfl, he⟩ := ih (extend m op left u right _ hop hP hr) h
    exact ⟨t :: (pre ++ pre'), by simp, by simpa [hk] using he⟩
  | case3 => cases h
  | case4 => cases h; exact ⟨[], rfl, by simpa using hP⟩
  | case5 => cases h; exact ⟨[], rfl, by simpa using hP⟩

/-- A chain ends in front of anything but one of its operators. -/
theorem chainFrom_eq_self {left : Expr} {ts : List Token}
    (h : ∀ m, peek ts = .mark m → operator? m = none) :
    chainFrom operator? operand progress left ts = .ok (left, ts) := by
  cases ts with
  | nil => simp [chainFrom]
  | cons t ts =>
    rw [chainFrom]
    split
    · next m hk => simp [h m hk]
    · rfl

/-- A chain goes on over one of its operators. -/
theorem chainFrom_cons {left right : Expr} {t : Token} {ts rest : List Token} {m : Mark}
    {op : BinaryOp} (hk : t.kind = .mark m) (hop : operator? m = some op)
    (h : operand ts = .ok (right, rest)) :
    chainFrom operator? operand progress left (t :: ts) =
      chainFrom operator? operand progress (.binary op left right) rest := by
  rw [chainFrom]
  simp only [hk, hop]
  split
  · next hr => rw [h] at hr; cases hr; rfl
  · next hr => rw [h] at hr; cases hr

theorem chain_eq_chainFrom {left : Expr} {ts rest : List Token}
    (h : operand ts = .ok (left, rest)) :
    chain operator? operand progress ts = chainFrom operator? operand progress left rest := by
  simp only [chain, Bind.bind, StateT.bind, h]
  rfl

end Chain

/-! ### Arguments -/

section Arguments

variable {expr : Parser Expr} {progress : expr.Consumes}

theorem arguments_reads {P : Expr → List Token.Kind → Prop} (hP : expr.Reads P) :
    (arguments expr progress).Reads fun es w =>
      ∃ args : List (Expr × List Token.Kind), args ≠ [] ∧ (∀ a ∈ args, P a.1 a.2) ∧
        es = args.map Prod.fst ∧ w = Token.Kind.argumentList (args.map Prod.snd) := by
  intro ts es rest h
  unfold arguments at h
  fun_induction argumentsFrom expr progress ts generalizing es rest with
  | case1 => cases h
  | case2 => cases h
  | case3 => cases h
  | case4 ts e t ts' he hk es' last hes ih =>
    cases h
    obtain ⟨pre, rfl, hPe⟩ := hP he
    obtain ⟨pre', rfl, args, hne, hall, rfl, hw⟩ := ih hes
    refine ⟨pre ++ t :: pre', by simp, (e, pre.map Token.kind) :: args, by simp, ?_, rfl, ?_⟩
    · simpa [hPe] using hall
    · obtain ⟨a, args', rfl⟩ := List.exists_cons_of_ne_nil hne
      simp [hk, hw, Token.Kind.argumentList, List.intercalate_cons_cons]
  | case5 ts e t ts' he _ hk =>
    cases h
    obtain ⟨pre, rfl, hPe⟩ := hP he
    exact ⟨pre ++ [t], by simp, [(e, pre.map Token.kind)], by simp, by simpa using hPe, rfl,
      by simp [hk, Token.Kind.argumentList]⟩
  | case6 => cases h

theorem argumentsFrom_last {e : Expr} {t : Token} {ts rest : List Token}
    (h : expr ts = .ok (e, t :: rest)) (hk : t.kind = .mark .closeParen) :
    argumentsFrom expr progress ts = .ok ([e], rest) := by
  rw [argumentsFrom]
  split <;> rename_i hr <;> rw [h] at hr <;> cases hr
  simp [hk]

theorem argumentsFrom_cons {e : Expr} {es : List Expr} {t : Token} {ts mid rest : List Token}
    (h : expr ts = .ok (e, t :: mid)) (hk : t.kind = .mark .comma)
    (tail : argumentsFrom expr progress mid = .ok (es, rest)) :
    argumentsFrom expr progress ts = .ok (e :: es, rest) := by
  rw [argumentsFrom]
  split <;> rename_i hr <;> rw [h] at hr <;> cases hr
  simp [hk, tail]

/-- Arguments that are taken one by one are taken together. -/
theorem arguments_takes {F : Token.Kind → Prop} (comma : F (.mark .comma))
    (close : F (.mark .closeParen)) {args : List (Expr × List Token.Kind)} (nonempty : args ≠ [])
    (each : ∀ a ∈ args, expr.Takes F a.1 a.2) :
    (arguments expr progress).Takes (fun _ => True) (args.map Prod.fst)
      (Token.Kind.argumentList (args.map Prod.snd)) := by
  unfold arguments
  induction args with
  | nil => exact absurd rfl nonempty
  | cons a args ih =>
    intro pre rest hw _
    have head := each a List.mem_cons_self
    cases args with
    | nil =>
      simp only [Token.Kind.argumentList, List.map_cons, List.map_nil,
        List.intercalate_singleton] at hw
      obtain ⟨pre₁, pre₂, rfl, h₁, h₂⟩ := List.map_eq_append_iff.1 hw
      obtain ⟨t, rfl, hk⟩ := List.map_eq_singleton_iff.1 h₂
      rw [List.append_assoc]
      exact argumentsFrom_last (head h₁ (by simpa [peek, hk] using close)) hk
    | cons b args =>
      have tail := ih (by simp) fun c hc => each c (List.mem_cons_of_mem a hc)
      simp only [Token.Kind.argumentList, List.map_cons, List.intercalate_cons_cons,
        List.append_assoc, List.singleton_append] at hw
      obtain ⟨pre₁, pre₂, rfl, h₁, h₂⟩ := List.map_eq_append_iff.1 hw
      obtain ⟨t, ts, rfl, hk, hts⟩ := List.map_eq_cons_iff.1 h₂
      rw [List.append_assoc]
      exact argumentsFrom_cons (head h₁ (by simpa [peek, hk] using comma)) hk (tail hts trivial)

end Arguments

end Parser

open RigScript.Parser

/-! ### Strata -/

/-- The level below the one with a given number of levels below it. -/
def Level.inner : Nat → Option Level
  | 0 => none
  | d + 1 => some (ofDepth d)

namespace Stratum

/-- The operators of a stratum. -/
def operator? : Stratum → Mark → Option BinaryOp
  | comparison => comparisonOp?
  | sum => sumOp?
  | product => productOp?
  | unary => fun _ => none
  | primary => fun _ => none

theorem operator?_mark (op : BinaryOp) : op.stratum.operator? op.mark = some op := by
  cases op <;> rfl

theorem eq_mark_of_operator? {s : Stratum} {m : Mark} {op : BinaryOp}
    (h : s.operator? m = some op) : m = op.mark ∧ op.stratum = s := by
  cases s <;> cases m <;> cases h <;> exact ⟨rfl, rfl⟩

/-- The parser of a stratum, given the next level of nesting. -/
def parser (inner : Option Level) : Stratum → Parser Expr
  | comparison => Level.comparison inner
  | sum => Level.sum inner
  | product => Level.product inner
  | unary => Level.signedOperand inner
  | primary => Level.primary inner

theorem parser_consumes (inner : Option Level) (s : Stratum) : (s.parser inner).Consumes := by
  cases s with
  | comparison => exact Level.comparison_consumes inner
  | sum => exact Level.sum_consumes inner
  | product => exact Level.product_consumes inner
  | unary => exact Level.signedOperand_consumes inner
  | primary => exact Level.primary_consumes inner

/-- The strata with operators chain operands of the next one. -/
theorem parser_eq_chain (inner : Option Level) {s : Stratum} (hs : s.rank < unary.rank) :
    s.parser inner = chain s.operator? (s.next.parser inner) (s.next.parser_consumes inner) := by
  cases s with
  | comparison => rfl
  | sum => rfl
  | product => rfl
  | unary => exact absurd hs (Nat.lt_irrefl _)
  | primary => exact absurd hs (by decide)

theorem expr_ofDepth (d : Nat) : (Level.ofDepth d).expr = comparison.parser (Level.inner d) := by
  cases d <;> rfl

theorem unary_ofDepth (d : Nat) : (Level.ofDepth d).unary = unary.parser (Level.inner d) := by
  cases d <;> rfl

/-! ### Whatever is returned is spelled -/

/-- The tokens spell an expression of the stratum that nests up to a given depth. -/
def Spells (d : Nat) (s : Stratum) (e : Expr) (w : List Token.Kind) : Prop :=
  Expr.Derives s e w ∧ e.nest ≤ d

section Reads

variable {inner : Option Level} {d : Nat}

/-- The next level, if there is one, reads expressions that nest less deep. -/
def ReadsBelow (inner : Option Level) (d : Nat) : Prop :=
  ∀ l, inner = some l → ∃ d', d = d' + 1 ∧ l.unary.Reads (Spells d' .unary) ∧
    l.expr.Reads (Spells d' .comparison)

theorem descend_reads {α : Type} {p : Level → Parser α} {R : α → List Token.Kind → Prop}
    (h : ∀ l, inner = some l → (p l).Reads R) : (Level.descend inner p).Reads R := by
  cases inner with
  | none => exact stopAt_reads _ R
  | some l => exact h l rfl

theorem call_reads (h : ReadsBelow inner d) (f : String) :
    (Level.call inner f).Reads fun e w => Spells d .primary e (.word f :: w) := by
  refine (expect_reads .openParen).bind fun _ u hu => ?_
  refine Reads.bind (R := fun es w => Spells d .primary (.call f es) (.word f :: (u ++ w)))
    (descend_reads fun l hl => ?_) fun es v hs => pure_reads (by simpa using hs)
  obtain ⟨d', rfl, -, he⟩ := h l hl
  refine (arguments_reads he).mono ?_
  rintro es w ⟨args, nonempty, each, rfl, rfl⟩
  subst hu
  refine ⟨.call f args nonempty fun a ha => (each a ha).1, ?_⟩
  rw [Expr.nest, Nat.add_le_add_iff_right, Expr.nestAll_le_iff]
  simpa using fun e w hm => (each (e, w) hm).2

theorem bracketed_reads (h : ReadsBelow inner d) :
    (Level.bracketed inner).Reads fun e w => Spells d .primary e (.mark .openParen :: w) := by
  refine Reads.bind (R := fun e w => Expr.Derives .comparison e w ∧ e.nest + 1 ≤ d)
    (descend_reads fun l hl => ?_) fun e u ⟨he, hd⟩ => ?_
  · obtain ⟨d', rfl, -, he⟩ := h l hl
    exact he.mono fun e w hs => ⟨hs.1, Nat.succ_le_succ hs.2⟩
  · refine (expect_reads .closeParen).bind fun _ v hv => pure_reads ?_
    subst hv
    exact ⟨by simpa using he.brackets, hd⟩

theorem signed_reads (h : ReadsBelow inner d) (op : UnaryOp) :
    (Level.signed inner op).Reads fun e w => Spells d .unary e (.mark op.mark :: w) := by
  refine Reads.bind (R := fun e w => Expr.Derives .unary e w ∧ e.nest + 1 ≤ d)
    (descend_reads fun l hl => ?_) fun e u ⟨he, hd⟩ => pure_reads ⟨?_, hd⟩
  · obtain ⟨d', rfl, hu, -⟩ := h l hl
    exact hu.mono fun e w hs => ⟨hs.1, Nat.succ_le_succ hs.2⟩
  · simpa using he.unary op

theorem primary_reads (h : ReadsBelow inner d) :
    (Level.primary inner).Reads (Spells d .primary) := by
  intro ts e rest hp
  unfold Level.primary at hp
  split at hp
  · cases hp
  · next t ts' =>
    split at hp
    · next v hk => cases hp; exact ⟨[t], rfl, by simpa [hk] using .number v, Nat.zero_le d⟩
    · next p hk => cases hp; exact ⟨[t], rfl, by simpa [hk] using .path p, Nat.zero_le d⟩
    · next f hk =>
      obtain ⟨pre, rfl, hs⟩ := call_reads h f hp
      exact ⟨t :: pre, rfl, by simpa [hk] using hs⟩
    · next hk =>
      obtain ⟨pre, rfl, hs⟩ := bracketed_reads h hp
      exact ⟨t :: pre, rfl, by simpa [hk] using hs⟩
    · cases hp

theorem signedOperand_reads (h : ReadsBelow inner d) :
    (Level.signedOperand inner).Reads (Spells d .unary) := by
  have unsigned : (Level.primary inner).Reads (Spells d .unary) :=
    (primary_reads h).mono fun e w hs => ⟨.operand .unary hs.1, hs.2⟩
  intro ts e rest hp
  unfold Level.signedOperand at hp
  split at hp
  · exact unsigned hp
  · next t ts' =>
    split at hp
    · next hk =>
      obtain ⟨pre, rfl, hs⟩ := signed_reads h .minus hp
      exact ⟨t :: pre, rfl, by simpa [hk, UnaryOp.mark] using hs⟩
    · next hk =>
      obtain ⟨pre, rfl, hs⟩ := signed_reads h .plus hp
      exact ⟨t :: pre, rfl, by simpa [hk, UnaryOp.mark] using hs⟩
    · exact unsigned hp

theorem chain_reads {s : Stratum} (hs : s.rank < unary.rank)
    (h : (s.next.parser inner).Reads (Spells d s.next)) : (s.parser inner).Reads (Spells d s) := by
  rw [parser_eq_chain inner hs]
  refine h.bind fun left u hl => chainFrom_reads h ?_ ⟨.operand s hl.1, hl.2⟩
  rintro m op l u r v hop ⟨hl, hld⟩ ⟨hr, hrd⟩
  obtain ⟨rfl, rfl⟩ := eq_mark_of_operator? hop
  exact ⟨hl.binary op hr, Nat.max_le.2 ⟨hld, hrd⟩⟩

/-- One level of nesting: if the levels below read what they should, so do all strata. -/
theorem reads_of_readsBelow (h : ReadsBelow inner d) (s : Stratum) :
    (s.parser inner).Reads (Spells d s) := by
  have products := chain_reads (s := .product) (by decide) (signedOperand_reads h)
  have sums := chain_reads (s := .sum) (by decide) products
  cases s with
  | comparison => exact chain_reads (by decide) sums
  | sum => exact sums
  | product => exact products
  | unary => exact signedOperand_reads h
  | primary => exact primary_reads h

end Reads

/-- What the parser of a stratum returns is an expression of the stratum that its tokens spell and
that nests no deeper than the levels go. -/
theorem parser_reads (d : Nat) (s : Stratum) : (s.parser (Level.inner d)).Reads (Spells d s) := by
  induction d generalizing s with
  | zero => exact reads_of_readsBelow (fun l hl => by cases hl) s
  | succ d ih =>
    refine reads_of_readsBelow (fun l hl => ?_) s
    cases hl
    refine ⟨d, rfl, ?_, ?_⟩
    · rw [unary_ofDepth]; exact ih .unary
    · rw [expr_ofDepth]; exact ih .comparison

/-! ### Whatever is spelled is returned -/

/-- An operator with this mark does not bind tighter than the stratum. -/
def Admits (s : Stratum) (k : Token.Kind) : Prop :=
  ∀ op : BinaryOp, k = .mark op.mark → op.stratum.rank ≤ s.rank

/-- An operator with this mark binds less tightly than the stratum, so it ends its chains. -/
def Ends (s : Stratum) (k : Token.Kind) : Prop :=
  ∀ op : BinaryOp, k = .mark op.mark → op.stratum.rank < s.rank

theorem Ends.admits {s : Stratum} {k : Token.Kind} (h : s.Ends k) : s.Admits k :=
  fun op hk => Nat.le_of_lt (h op hk)

theorem Admits.ends {s t : Stratum} {k : Token.Kind} (h : s.Admits k) (hst : s.rank < t.rank) :
    t.Ends k :=
  fun op hk => Nat.lt_of_le_of_lt (h op hk) hst

/-- No operator goes on with a signed operand or a primary one. -/
theorem ends_of_unary_le {s : Stratum} (hs : unary.rank ≤ s.rank) (k : Token.Kind) : s.Ends k :=
  fun op _ => Nat.lt_of_lt_of_le op.rank_stratum_lt_unary hs

theorem admits_mark (op : BinaryOp) : op.stratum.Admits (.mark op.mark) := by
  intro op' h
  obtain rfl := BinaryOp.mark_injective (Token.Kind.mark.inj h)
  exact Nat.le_refl _

/-- Extends an expression by the operators of the stratum that follow it. -/
def extend (inner : Option Level) (s : Stratum) (e : Expr) : Parser Expr :=
  chainFrom s.operator? (s.next.parser inner) (s.next.parser_consumes inner) e

theorem extend_eq_self {inner : Option Level} {s : Stratum} {e : Expr} {rest : List Token}
    (h : s.Ends (peek rest)) : s.extend inner e rest = .ok (e, rest) := by
  refine chainFrom_eq_self fun m hm => ?_
  cases hop : s.operator? m with
  | none => rfl
  | some op =>
    obtain ⟨rfl, rfl⟩ := eq_mark_of_operator? hop
    exact absurd (h op hm) (Nat.lt_irrefl _)

/-- In front of tokens that spell an expression, the parser of the stratum goes on as if it had
just read that expression. This is what holds along a chain, whose left part is followed by an
operator of the same stratum. -/
def Enters (d : Nat) (s : Stratum) (e : Expr) (w : List Token.Kind) : Prop :=
  ∀ ⦃pre rest : List Token⦄, pre.map Token.kind = w → s.Admits (peek rest) →
    s.parser (Level.inner d) (pre ++ rest) = s.extend (Level.inner d) e rest

theorem Enters.takes {d : Nat} {s : Stratum} {e : Expr} {w : List Token.Kind}
    (h : Enters d s e w) : (s.parser (Level.inner d)).Takes s.Ends e w := by
  intro pre rest hw hends
  rw [h hw hends.admits, extend_eq_self hends]

/-- A stratum without operators only has to take the tokens. -/
theorem enters_of_takes {d : Nat} {s : Stratum} {e : Expr} {w : List Token.Kind}
    (hs : unary.rank ≤ s.rank) (h : (s.parser (Level.inner d)).Takes (fun _ => True) e w) :
    Enters d s e w := by
  intro pre rest hw _
  rw [h hw trivial, extend_eq_self (ends_of_unary_le hs _)]

theorem enters_call {d : Nat} (f : String) {args : List (Expr × List Token.Kind)}
    (nonempty : args ≠ []) (each : ∀ a ∈ args, Enters d .comparison a.1 a.2) :
    Enters (d + 1) .primary (.call f (args.map Prod.fst))
      (.word f :: .mark .openParen :: Token.Kind.argumentList (args.map Prod.snd)) := by
  have inside : (Level.call (Level.inner (d + 1)) f).Takes (fun _ => True)
      (.call f (args.map Prod.fst))
      ([.mark .openParen] ++ (Token.Kind.argumentList (args.map Prod.snd) ++ [])) := by
    refine (expect_takes .openParen).bind (Takes.bind (a := args.map Prod.fst)
      (arguments_takes (F := comparison.Ends) ?_ ?_ nonempty fun a ha => ?_) (pure_takes _ _)
      fun _ _ => trivial) fun _ _ => trivial
    · exact fun op h => by cases op <;> cases h
    · exact fun op h => by cases op <;> cases h
    · rw [expr_ofDepth]; exact (each a ha).takes
  refine enters_of_takes (by decide) fun pre rest hw _ => ?_
  obtain ⟨t, ts, rfl, hk, hts⟩ := List.map_eq_cons_iff.1 hw
  simp only [parser, Level.primary, List.cons_append, hk]
  exact inside (by simpa using hts) trivial

theorem enters_brackets {d : Nat} {e : Expr} {w : List Token.Kind}
    (h : Enters d .comparison e w) :
    Enters (d + 1) .primary (.brackets e) (.mark .openParen :: (w ++ [.mark .closeParen])) := by
  have inside : (Level.bracketed (Level.inner (d + 1))).Takes (fun _ => True) (.brackets e)
      (w ++ ([.mark .closeParen] ++ [])) := by
    refine Takes.bind (F := comparison.Ends) (a := e) ?_ ((expect_takes .closeParen).bind
      (pure_takes _ _) fun _ _ => trivial) fun k _ => ?_
    · have := h.takes
      rwa [← expr_ofDepth] at this
    · exact fun op h => by cases op <;> cases h
  refine enters_of_takes (by decide) fun pre rest hw _ => ?_
  obtain ⟨t, ts, rfl, hk, hts⟩ := List.map_eq_cons_iff.1 hw
  simp only [parser, Level.primary, List.cons_append, hk]
  exact inside (by simpa using hts) trivial

theorem enters_unary {d : Nat} (op : UnaryOp) {e : Expr} {w : List Token.Kind}
    (h : Enters d .unary e w) : Enters (d + 1) .unary (.unary op e) (.mark op.mark :: w) := by
  have inside : (Level.signed (Level.inner (d + 1)) op).Takes (fun _ => True) (.unary op e)
      (w ++ []) := by
    refine Takes.bind (F := unary.Ends) (a := e) ?_ (pure_takes _ _) fun k _ =>
      ends_of_unary_le (Nat.le_refl _) _
    have := h.takes
    rwa [← unary_ofDepth] at this
  refine enters_of_takes (by decide) fun pre rest hw _ => ?_
  obtain ⟨t, ts, rfl, hk, hts⟩ := List.map_eq_cons_iff.1 hw
  have taken : Level.signed (Level.inner (d + 1)) op (ts ++ rest) = .ok (.unary op e, rest) :=
    inside (by simpa using hts) trivial
  cases op <;> simpa [parser, Level.signedOperand, hk, UnaryOp.mark] using taken

/-- The chain of the left part goes on over the operator, whose right part ends where the whole
does. -/
theorem enters_binary {d : Nat} (op : BinaryOp) {l r : Expr} {u v : List Token.Kind}
    (hl : Enters d op.stratum l u) (hr : Enters d op.stratum.next r v) :
    Enters d op.stratum (.binary op l r) (u ++ .mark op.mark :: v) := by
  intro pre rest hw admits
  obtain ⟨pre₁, pre₂, rfl, hu, h₂⟩ := List.map_eq_append_iff.1 hw
  obtain ⟨t, ts, rfl, hk, hv⟩ := List.map_eq_cons_iff.1 h₂
  have left : op.stratum.parser (Level.inner d) (pre₁ ++ t :: (ts ++ rest)) =
      op.stratum.extend (Level.inner d) l (t :: (ts ++ rest)) :=
    hl hu (by rw [peek, hk]; exact admits_mark op)
  -- What follows the whole binds no tighter than the operator, so it ends the right operand.
  have right := hr.takes hv (admits.ends op.rank_stratum_lt_next)
  rw [List.append_assoc, List.cons_append, left]
  exact chainFrom_cons hk (operator?_mark op) right

/-- An operand of the next stratum is a chain without operators. -/
theorem enters_operand {d : Nat} {s : Stratum} {e : Expr} {w : List Token.Kind}
    (hs : s.rank < unary.rank) (h : Enters d s.next e w) : Enters d s e w := by
  intro pre rest hw admits
  have hlt : s.rank < s.next.rank := by cases s <;> first | decide | exact absurd hs (by decide)
  rw [parser_eq_chain _ hs]
  exact chain_eq_chainFrom (h.takes hw (admits.ends hlt))

/-- A primary operand is a signed one without signs: its first token is none. -/
theorem enters_unsigned {d : Nat} {e : Expr} {w : List Token.Kind}
    (derives : Expr.Derives .primary e w) (h : Enters d .primary e w) : Enters d .unary e w := by
  refine enters_of_takes (Nat.le_refl _) fun pre rest hw _ => ?_
  have taken := h.takes hw (ends_of_unary_le (by decide) (peek rest))
  obtain ⟨k, v, rfl, unsigned⟩ := derives.exists_cons_of_primary rfl
  obtain ⟨t, ts, rfl, rfl, -⟩ := List.map_eq_cons_iff.1 hw
  simp only [parser, Level.signedOperand, List.cons_append]
  split
  · next hk => exact absurd hk (unsigned .minus)
  · next hk => exact absurd hk (unsigned .plus)
  · exact taken

/-- The parser of a stratum enters every expression of the stratum that nests no deeper than the
levels go. -/
theorem enters_of_derives {s : Stratum} {e : Expr} {w : List Token.Kind}
    (h : Expr.Derives s e w) {d : Nat} (hd : e.nest ≤ d) : Enters d s e w := by
  -- Calls, brackets and signs use up a level; everything else stays on its own.
  induction h generalizing d with
  | number v =>
    refine enters_of_takes (by decide) fun pre rest hw _ => ?_
    obtain ⟨t, rfl, hk⟩ := List.map_eq_singleton_iff.1 hw
    simp [parser, Level.primary, hk]
  | path p =>
    refine enters_of_takes (by decide) fun pre rest hw _ => ?_
    obtain ⟨t, rfl, hk⟩ := List.map_eq_singleton_iff.1 hw
    simp [parser, Level.primary, hk]
  | call f args nonempty _ ih =>
    obtain ⟨d, rfl⟩ := Nat.exists_eq_add_one.2 (Nat.lt_of_lt_of_le (Nat.succ_pos _) hd)
    rw [Expr.nest, Nat.add_le_add_iff_right, Expr.nestAll_le_iff] at hd
    exact enters_call f nonempty fun a ha => ih a ha (hd a.1 (List.mem_map_of_mem ha))
  | brackets _ ih =>
    obtain ⟨d, rfl⟩ := Nat.exists_eq_add_one.2 (Nat.lt_of_lt_of_le (Nat.succ_pos _) hd)
    exact enters_brackets (ih (Nat.le_of_succ_le_succ hd))
  | unary op _ ih =>
    obtain ⟨d, rfl⟩ := Nat.exists_eq_add_one.2 (Nat.lt_of_lt_of_le (Nat.succ_pos _) hd)
    exact enters_unary op (ih (Nat.le_of_succ_le_succ hd))
  | binary op _ _ ihl ihr =>
    obtain ⟨hl, hr⟩ := Nat.max_le.1 hd
    exact enters_binary op (ihl hl) (ihr hr)
  | operand s tighter ih =>
    cases s with
    | unary => exact enters_unsigned tighter (ih hd)
    | primary => exact ih hd
    | _ => exact enters_operand (by decide) (ih hd)

/-- The parser of a stratum takes every spelling of an expression of the stratum that nests no
deeper than the levels go. -/
theorem parser_takes {d : Nat} {s : Stratum} {e : Expr} {w : List Token.Kind}
    (h : Spells d s e w) : (s.parser (Level.inner d)).Takes s.Ends e w :=
  (enters_of_derives h.1 h.2).takes

end Stratum

/-- No two expressions of a stratum have one spelling: a parser that goes deep enough returns
either. -/
theorem Expr.Derives.unique {s : Stratum} {e e' : Expr} {w : List Token.Kind}
    (h : Expr.Derives s e w) (h' : Expr.Derives s e' w) : e = e' := by
  let d := max e.nest e'.nest
  let pre : List Token := w.map fun k => ⟨k, 0, 0⟩
  have hw : pre.map Token.kind = w := by simp [pre, Function.comp_def]
  have finish : s.Ends (peek []) := fun op hk => nomatch hk
  have read := Stratum.parser_takes (d := d) ⟨h, Nat.le_max_left ..⟩ hw finish
  have read' := Stratum.parser_takes (d := d) ⟨h', Nat.le_max_right ..⟩ hw finish
  rw [read] at read'
  cases read'
  rfl

/-! ### Whole expressions -/

theorem Expr.parser_reads : Expr.parser.Reads (Stratum.Spells maxNesting .comparison) := by
  rw [Expr.parser, Stratum.expr_ofDepth]
  exact Stratum.parser_reads maxNesting .comparison

theorem Expr.parser_takes {e : Expr} {w : List Token.Kind}
    (h : Stratum.Spells maxNesting .comparison e w) :
    Expr.parser.Takes Stratum.comparison.Ends e w := by
  rw [Expr.parser, Stratum.expr_ofDepth]
  exact Stratum.parser_takes h

end RigScript
