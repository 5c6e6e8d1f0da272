import Mathlib.Order.Filter.AtTopBot.Basic
import RigScript.Proofs.Program.Parsing

/-!
# Where an expression breaks off

A list of tokens breaks off at a token if some expression starts with the tokens before it and none
goes on with that token. `Breaks` lists the ways in which this happens, construct by construct: the
tokens before are operands that are complete and constructs that are still open, and the token
neither goes on with the innermost open construct nor closes it. Every such list can be completed,
by closing what is open. No such list can be continued with the token: a parser whose levels go deep
enough takes every complete operand and fails at the token.

## Main definitions

* `RigScript.Expr.Breaks`: where an expression of a stratum breaks off
* `RigScript.Parser.Refuses`: a parser that fails on all tokens that start in a given way
* `RigScript.Prompt`: spellings that can be told from what follows them
* `RigScript.Bars`: no spelling starts in a given way

## Main results

* `RigScript.Expr.Breaks.exists_derives`: an expression that breaks off can be completed
* `RigScript.Expr.Breaks.eventually_refuses`: no parser of expressions that goes deep enough goes on
* `RigScript.Expr.prompt_derives`: an expression can be told from what follows it
* `RigScript.Expr.Breaks.bars`: no expression goes on where one breaks off
-/

namespace RigScript

open RigScript.Parser

/-! ### Expressions that break off -/

/-- An operand without a sign starts with a token of this kind. -/
inductive Token.Kind.StartsPrimary : Token.Kind → Prop
  | number (v : Float) : StartsPrimary (.number v)
  | path (p : String) : StartsPrimary (.path p)
  | word (f : String) : StartsPrimary (.word f)
  | openParen : StartsPrimary (.mark .openParen)

/-- Arguments that are followed by others, given the spelling of each: with a comma after each. -/
def Token.Kind.argumentsBefore (words : List (List Token.Kind)) : List Token.Kind :=
  words.flatMap fun w => w ++ [.mark .comma]

/-- **An expression of a stratum breaks off**: the tokens before the given one start it, and the
given one neither goes on with it nor ends it. -/
inductive Expr.Breaks : Stratum → List Token.Kind → Token.Kind → Prop
  /-- No operand starts like this. -/
  | start {k : Token.Kind} (h : ¬ k.StartsPrimary) : Breaks .primary [] k
  /-- The name of a function stands without a bracket. -/
  | name (f : String) {k : Token.Kind} (h : k ≠ .mark .openParen) : Breaks .primary [.word f] k
  /-- An argument of a call breaks off, after the complete ones. -/
  | argument (f : String) {args : List (Expr × List Token.Kind)} {w : List Token.Kind}
      {k : Token.Kind} (each : ∀ a ∈ args, Derives .comparison a.1 a.2)
      (inner : Breaks .comparison w k) :
      Breaks .primary (.word f :: .mark .openParen ::
        (Token.Kind.argumentsBefore (args.map Prod.snd) ++ w)) k
  /-- A call neither goes on nor closes after an argument. -/
  | arguments (f : String) {args : List (Expr × List Token.Kind)} {e : Expr}
      {w : List Token.Kind} {k : Token.Kind} (each : ∀ a ∈ args, Derives .comparison a.1 a.2)
      (last : Derives .comparison e w) (ends : Stratum.comparison.Ends k)
      (comma : k ≠ .mark .comma) (close : k ≠ .mark .closeParen) :
      Breaks .primary (.word f :: .mark .openParen ::
        (Token.Kind.argumentsBefore (args.map Prod.snd) ++ w)) k
  /-- An expression in brackets breaks off. -/
  | bracketed {w : List Token.Kind} {k : Token.Kind} (inner : Breaks .comparison w k) :
      Breaks .primary (.mark .openParen :: w) k
  /-- Brackets do not close after an expression. -/
  | brackets {e : Expr} {w : List Token.Kind} {k : Token.Kind} (inner : Derives .comparison e w)
      (ends : Stratum.comparison.Ends k) (close : k ≠ .mark .closeParen) :
      Breaks .primary (.mark .openParen :: w) k
  /-- The operand of a sign breaks off. -/
  | signed (op : UnaryOp) {w : List Token.Kind} {k : Token.Kind} (operand : Breaks .unary w k) :
      Breaks .unary (.mark op.mark :: w) k
  /-- An operand without a sign breaks off. -/
  | unsigned {w : List Token.Kind} {k : Token.Kind} (operand : Breaks .primary w k)
      (sign : ∀ op : UnaryOp, (w ++ [k]).head? ≠ some (.mark op.mark)) : Breaks .unary w k
  /-- The first operand of a chain breaks off. -/
  | first {s : Stratum} (hs : s.rank < Stratum.unary.rank) {w : List Token.Kind} {k : Token.Kind}
      (operand : Breaks s.next w k) : Breaks s w k
  /-- A later operand of a chain breaks off. -/
  | right (op : BinaryOp) {l : Expr} {u w : List Token.Kind} {k : Token.Kind}
      (left : Derives op.stratum l u) (operand : Breaks op.stratum.next w k) :
      Breaks op.stratum (u ++ .mark op.mark :: w) k

namespace Expr

/-- A primary operand is an expression of every stratum. -/
theorem Derives.of_primary {e : Expr} {w : List Token.Kind} (h : Derives .primary e w)
    (s : Stratum) : Derives s e w := by
  have unary : Derives .unary e w := .operand .unary h
  have product : Derives .product e w := .operand .product unary
  have sum : Derives .sum e w := .operand .sum product
  cases s with
  | comparison => exact .operand .comparison sum
  | sum => exact sum
  | product => exact product
  | unary => exact unary
  | primary => exact h

theorem argumentList_concat (ws : List (List Token.Kind)) (w : List Token.Kind) :
    Token.Kind.argumentList (ws ++ [w]) =
      Token.Kind.argumentsBefore ws ++ (w ++ [.mark .closeParen]) := by
  induction ws with
  | nil => simp [Token.Kind.argumentList, Token.Kind.argumentsBefore]
  | cons v ws ih =>
      obtain ⟨x, xs, hx⟩ := List.exists_cons_of_ne_nil (List.concat_ne_nil w ws)
      simp only [Token.Kind.argumentList, Token.Kind.argumentsBefore, List.cons_append, hx,
        List.intercalate_cons_cons, List.flatMap_cons, List.append_assoc] at ih ⊢
      rw [ih]

/-- The call of a function with one argument after complete ones. -/
theorem Derives.call_concat (f : String) {args : List (Expr × List Token.Kind)} {e : Expr}
    {w : List Token.Kind} (each : ∀ a ∈ args, Derives .comparison a.1 a.2)
    (last : Derives .comparison e w) :
    ∃ e', Derives .primary e' (.word f :: .mark .openParen ::
      (Token.Kind.argumentsBefore (args.map Prod.snd) ++ (w ++ [.mark .closeParen]))) := by
  have hcall := Derives.call f (args ++ [(e, w)]) (by simp)
    (List.forall_mem_append.2 ⟨each, List.forall_mem_singleton.2 last⟩)
  rw [List.map_append (f := Prod.snd), List.map_singleton, argumentList_concat] at hcall
  exact ⟨_, hcall⟩

/-- **An expression that breaks off can be completed.** -/
theorem Breaks.exists_derives {s : Stratum} {w : List Token.Kind} {k : Token.Kind}
    (h : Breaks s w k) : ∃ e v, Derives s e (w ++ v) := by
  induction h with
  | start => exact ⟨_, _, .number 0⟩
  | name f =>
      obtain ⟨e, he⟩ := Derives.call_concat f (List.forall_mem_nil _)
        ((Derives.number 0).of_primary .comparison)
      exact ⟨e, _, he⟩
  | argument f each _ ih =>
      obtain ⟨e, v, he⟩ := ih
      obtain ⟨e', he'⟩ := Derives.call_concat f each he
      exact ⟨e', v ++ [.mark .closeParen], by simpa using he'⟩
  | arguments f each last =>
      obtain ⟨e, he⟩ := Derives.call_concat f each last
      exact ⟨e, [.mark .closeParen], by simpa using he⟩
  | bracketed _ ih =>
      obtain ⟨e, v, he⟩ := ih
      exact ⟨_, v ++ [.mark .closeParen], by simpa using he.brackets⟩
  | brackets inner => exact ⟨_, [.mark .closeParen], inner.brackets⟩
  | signed op _ ih =>
      obtain ⟨e, v, he⟩ := ih
      exact ⟨_, v, he.unary op⟩
  | unsigned _ _ ih =>
      obtain ⟨e, v, he⟩ := ih
      exact ⟨e, v, .operand .unary he⟩
  | first _ _ ih =>
      obtain ⟨e, v, he⟩ := ih
      exact ⟨e, v, .operand _ he⟩
  | right op left _ ih =>
      obtain ⟨e, v, he⟩ := ih
      exact ⟨_, v, by simpa using left.binary op he⟩

end Expr

/-! ### Parsers that do not go on -/

/-- The kind of the first token, where the end of a script goes on for ever. -/
def Token.Kind.next (w : List Token.Kind) : Token.Kind :=
  w.headD .finish

namespace Parser

variable {α β : Type} {w : List Token.Kind} {k : Token.Kind}

/-- The first of the tokens up to a given one. -/
theorem head?_eq_peek (pre : List Token) (t : Token) (post : List Token) :
    (pre.map Token.kind ++ [t.kind]).head? = some (peek (pre ++ t :: post)) := by
  cases pre <;> rfl

theorem next_eq_peek (pre : List Token) (t : Token) (post : List Token) :
    Token.Kind.next (pre.map Token.kind ++ [t.kind]) = peek (pre ++ t :: post) := by
  cases pre <;> rfl

/-- The parser fails on tokens that start with `w` and then `k`, whatever comes after. -/
def Refuses (p : Parser α) (w : List Token.Kind) (k : Token.Kind) : Prop :=
  ∀ ⦃pre : List Token⦄ ⦃t : Token⦄, pre.map Token.kind = w → t.kind = k →
    ∀ post, ∃ stop, p (pre ++ t :: post) = .error stop

theorem Refuses.bind {p : Parser α} (h : p.Refuses w k) (f : α → Parser β) :
    (p >>= f).Refuses w k := by
  intro pre t hw hk post
  obtain ⟨stop, hstop⟩ := h hw hk post
  exact ⟨stop, by simp only [Bind.bind, StateT.bind, hstop]; rfl⟩

/-- The first of two parsers takes its tokens, and the second one fails on what is left. -/
theorem Takes.bind_refuses {p : Parser α} {f : α → Parser β} {F : Token.Kind → Prop} {a : α}
    {u : List Token.Kind} (hp : p.Takes F a u) (follows : F (Token.Kind.next (w ++ [k])))
    (hf : (f a).Refuses w k) : (p >>= f).Refuses (u ++ w) k := by
  intro pre t hw hk post
  obtain ⟨pre₁, pre₂, rfl, hu, rfl⟩ := List.map_eq_append_iff.1 hw
  subst hk
  obtain ⟨stop, hstop⟩ := hf rfl rfl post
  have htake : p (pre₁ ++ (pre₂ ++ t :: post)) = .ok (a, pre₂ ++ t :: post) :=
    hp hu (next_eq_peek pre₂ t post ▸ follows)
  exact ⟨stop, by simp only [Bind.bind, StateT.bind, List.append_assoc, htake]; exact hstop⟩

theorem expect_refuses {m : Mark} (h : k ≠ .mark m) : (expect m).Refuses [] k := by
  intro pre t hw hk post
  obtain rfl := List.map_eq_nil_iff.1 hw
  exact ⟨⟨t.start, .expected (.mark m) k⟩, by simp only [List.nil_append, expect, hk, if_neg h]⟩

theorem chainFrom_error {operator? : Mark → Option BinaryOp} {operand : Parser Expr}
    {progress : operand.Consumes} {left : Expr} {t : Token} {ts : List Token} {m : Mark}
    {op : BinaryOp} {stop : Stop} (hk : t.kind = .mark m) (hop : operator? m = some op)
    (h : operand ts = .error stop) :
    chainFrom operator? operand progress left (t :: ts) = .error stop := by
  rw [chainFrom]
  simp only [hk, hop]
  split <;> rename_i hr <;> rw [h] at hr <;> cases hr
  rfl

section Arguments

variable {expr : Parser Expr} {progress : expr.Consumes}

/-- Arguments that are taken one by one leave their commas and what follows to be read. -/
theorem arguments_refuses_of_takes {F : Token.Kind → Prop} (comma : F (.mark .comma))
    {args : List (Expr × List Token.Kind)} (each : ∀ a ∈ args, expr.Takes F a.1 a.2)
    (h : (arguments expr progress).Refuses w k) :
    (arguments expr progress).Refuses (Token.Kind.argumentsBefore (args.map Prod.snd) ++ w) k := by
  induction args with
  | nil => exact h
  | cons a args ih =>
      obtain ⟨head, tail⟩ := List.forall_mem_cons.1 each
      intro pre t hw hk post
      simp only [List.map_cons, Token.Kind.argumentsBefore, List.flatMap_cons, List.append_assoc,
        List.singleton_append] at hw
      obtain ⟨pre₁, pre₂, rfl, h₁, h₂⟩ := List.map_eq_append_iff.1 hw
      obtain ⟨c, ts, rfl, hc, hts⟩ := List.map_eq_cons_iff.1 h₂
      obtain ⟨stop, hstop⟩ := ih tail hts hk post
      have htake : expr (pre₁ ++ c :: (ts ++ t :: post)) = .ok (a.1, c :: (ts ++ t :: post)) :=
        head h₁ (by simpa [peek, hc] using comma)
      refine ⟨stop, ?_⟩
      simp only [arguments, List.append_assoc, List.cons_append] at hstop ⊢
      rw [argumentsFrom]
      split <;> rename_i hr <;> rw [htake] at hr <;> cases hr
      simp [hc, hstop]

theorem arguments_refuses (h : expr.Refuses w k) : (arguments expr progress).Refuses w k := by
  intro pre t hw hk post
  obtain ⟨stop, hstop⟩ := h hw hk post
  refine ⟨stop, ?_⟩
  rw [arguments, argumentsFrom]
  split <;> rename_i hr <;> rw [hstop] at hr <;> cases hr
  rfl

/-- After an argument there has to be a comma or the closing bracket. -/
theorem arguments_refuses_of_ne {F : Token.Kind → Prop} {e : Expr} (h : expr.Takes F e w)
    (follows : F k) (comma : k ≠ .mark .comma) (close : k ≠ .mark .closeParen) :
    (arguments expr progress).Refuses w k := by
  intro pre t hw hk post
  have htake : expr (pre ++ t :: post) = .ok (e, t :: post) := h hw (by rwa [peek, hk])
  refine ⟨⟨t.start, .expected (.mark .closeParen) t.kind⟩, ?_⟩
  rw [arguments, argumentsFrom]
  split <;> rename_i hr <;> rw [htake] at hr <;> cases hr
  rw [if_neg (hk ▸ comma), if_neg (hk ▸ close)]

end Arguments

end Parser

namespace Level

variable {inner : Option Level} {w : List Token.Kind} {k : Token.Kind}

theorem primary_refuses_start (h : ¬ k.StartsPrimary) : (primary inner).Refuses [] k := by
  intro pre t hw hk post
  obtain rfl := List.map_eq_nil_iff.1 hw
  subst hk
  rw [List.nil_append, primary]
  split
  · next v hk => exact absurd (hk ▸ .number v) h
  · next p hk => exact absurd (hk ▸ .path p) h
  · next f hk => exact absurd (hk ▸ .word f) h
  · next hk => exact absurd (hk ▸ .openParen) h
  · exact ⟨_, rfl⟩

theorem primary_refuses_call {f : String} (h : (call inner f).Refuses w k) :
    (primary inner).Refuses (.word f :: w) k := by
  intro pre t hw hk post
  obtain ⟨u, us, rfl, hu, hus⟩ := List.map_eq_cons_iff.1 hw
  obtain ⟨stop, hstop⟩ := h hus hk post
  exact ⟨stop, by simp only [List.cons_append, primary, hu, hstop]⟩

theorem primary_refuses_bracketed (h : (bracketed inner).Refuses w k) :
    (primary inner).Refuses (.mark .openParen :: w) k := by
  intro pre t hw hk post
  obtain ⟨u, us, rfl, hu, hus⟩ := List.map_eq_cons_iff.1 hw
  obtain ⟨stop, hstop⟩ := h hus hk post
  exact ⟨stop, by simp only [List.cons_append, primary, hu, hstop]⟩

theorem signedOperand_refuses_signed {op : UnaryOp} (h : (signed inner op).Refuses w k) :
    (signedOperand inner).Refuses (.mark op.mark :: w) k := by
  intro pre t hw hk post
  obtain ⟨u, us, rfl, hu, hus⟩ := List.map_eq_cons_iff.1 hw
  obtain ⟨stop, hstop⟩ := h hus hk post
  refine ⟨stop, ?_⟩
  cases op <;> simpa [signedOperand, hu, UnaryOp.mark] using hstop

theorem signedOperand_eq_primary {ts : List Token}
    (h : ∀ op : UnaryOp, peek ts ≠ .mark op.mark) : signedOperand inner ts = primary inner ts := by
  cases ts with
  | nil => rfl
  | cons t ts =>
      simp only [signedOperand]
      split
      · next hk => exact absurd hk (h .minus)
      · next hk => exact absurd hk (h .plus)
      · rfl

theorem signedOperand_refuses_unsigned (h : (primary inner).Refuses w k)
    (sign : ∀ op : UnaryOp, (w ++ [k]).head? ≠ some (.mark op.mark)) :
    (signedOperand inner).Refuses w k := by
  intro pre t hw hk post
  obtain ⟨stop, hstop⟩ := h hw hk post
  subst hw hk
  rw [← signedOperand_eq_primary fun op hop => ?_] at hstop
  · exact ⟨stop, hstop⟩
  · exact sign op (by rw [head?_eq_peek pre t post, hop])

end Level

/-- No separator and no brace is an operator. -/
theorem Stratum.ends_separator (s : Stratum) {m : Mark}
    (h : m ∈ [Mark.comma, .semicolon, .openBrace, .closeBrace]) : s.Ends (.mark m) := by
  rintro op heq
  obtain rfl := Token.Kind.mark.inj heq
  cases op <;> simp [BinaryOp.mark] at h

/-- What holds at large depths gives what holds one level further up. -/
theorem eventually_deeper {P Q : Nat → Prop} (h : ∀ᶠ d in Filter.atTop, P d)
    (step : ∀ d, P d → Q (d + 1)) : ∀ᶠ d in Filter.atTop, Q d := by
  obtain ⟨d, hd⟩ := Filter.eventually_atTop.1 h
  refine Filter.eventually_atTop.2 ⟨d + 1, fun d' hd' => ?_⟩
  obtain ⟨n, rfl⟩ := Nat.exists_eq_add_one.2 (Nat.lt_of_lt_of_le d.succ_pos hd')
  exact step n (hd n (Nat.le_of_succ_le_succ hd'))

namespace Level

variable {d : Nat} {w : List Token.Kind} {k : Token.Kind}

/-- Arguments that are complete and nest no deeper than the levels go are taken. -/
theorem ofDepth_takes {args : List (Expr × List Token.Kind)}
    (each : ∀ a ∈ args, Expr.Derives .comparison a.1 a.2)
    (hd : Expr.nestAll (args.map Prod.fst) ≤ d) :
    ∀ a ∈ args, (ofDepth d).expr.Takes Stratum.comparison.Ends a.1 a.2 := by
  intro a ha
  rw [Stratum.expr_ofDepth]
  exact Stratum.parser_takes ⟨each a ha, Expr.nestAll_le_iff.1 hd a.1 (List.mem_map_of_mem ha)⟩

theorem call_refuses {f : String}
    (h : (arguments (ofDepth d).expr (ofDepth d).expr_consumes).Refuses w k) :
    (primary (inner (d + 1))).Refuses (.word f :: .mark .openParen :: w) k :=
  primary_refuses_call ((expect_takes .openParen).bind_refuses trivial (Refuses.bind h _))

end Level

/-- **No parser of expressions goes on where one breaks off**, if its levels go deep enough for
what is complete by then. -/
theorem Expr.Breaks.eventually_refuses {s : Stratum} {w : List Token.Kind} {k : Token.Kind}
    (h : Breaks s w k) : ∀ᶠ d in Filter.atTop, (s.parser (Level.inner d)).Refuses w k := by
  have comma := Stratum.comparison.ends_separator (m := .comma) (by simp)
  -- Calls, brackets and signs are refused one level further up than what they hold, and complete
  -- operands need a level that goes as deep as they nest.
  induction h with
  | start h => exact .of_forall fun d => Level.primary_refuses_start h
  | name f h => exact .of_forall fun d => Level.primary_refuses_call ((expect_refuses h).bind _)
  | @argument f args w k each _ ih =>
      refine eventually_deeper
        (ih.and (Filter.eventually_ge_atTop (Expr.nestAll (args.map Prod.fst)))) ?_
      rintro d ⟨hinner, hd⟩
      rw [← Stratum.expr_ofDepth] at hinner
      exact Level.call_refuses (arguments_refuses_of_takes comma (Level.ofDepth_takes each hd)
        (arguments_refuses hinner))
  | @arguments f args e w k each last ends comma' close =>
      refine eventually_deeper ((Filter.eventually_ge_atTop e.nest).and
        (Filter.eventually_ge_atTop (Expr.nestAll (args.map Prod.fst)))) ?_
      rintro d ⟨he, hd⟩
      have htakes := Stratum.parser_takes (d := d) ⟨last, he⟩
      rw [← Stratum.expr_ofDepth] at htakes
      exact Level.call_refuses (arguments_refuses_of_takes comma (Level.ofDepth_takes each hd)
        (arguments_refuses_of_ne htakes ends comma' close))
  | bracketed _ ih =>
      refine eventually_deeper ih fun d hinner => Level.primary_refuses_bracketed ?_
      rw [← Stratum.expr_ofDepth] at hinner
      exact Refuses.bind hinner _
  | @brackets e w k inner ends close =>
      refine eventually_deeper (Filter.eventually_ge_atTop e.nest) fun d hd =>
        Level.primary_refuses_bracketed ?_
      have htakes := Stratum.parser_takes (d := d) ⟨inner, hd⟩
      rw [← Stratum.expr_ofDepth] at htakes
      rw [← List.append_nil w]
      exact htakes.bind_refuses ends ((expect_refuses close).bind _)
  | signed op _ ih =>
      refine eventually_deeper ih fun d hinner => Level.signedOperand_refuses_signed ?_
      rw [← Stratum.unary_ofDepth] at hinner
      exact Refuses.bind hinner _
  | unsigned _ sign ih =>
      exact ih.mono fun d hinner => Level.signedOperand_refuses_unsigned hinner sign
  | first hs _ ih =>
      refine ih.mono fun d hinner => ?_
      rw [Stratum.parser_eq_chain _ hs]
      exact hinner.bind _
  | @right op l u w k left _ ih =>
      refine (ih.and (Filter.eventually_ge_atTop l.nest)).mono ?_
      rintro d ⟨hinner, hd⟩ pre t hw hk post
      obtain ⟨pre₁, pre₂, rfl, hu, h₂⟩ := List.map_eq_append_iff.1 hw
      obtain ⟨o, ts, rfl, ho, hts⟩ := List.map_eq_cons_iff.1 h₂
      obtain ⟨stop, hstop⟩ := hinner hts hk post
      have hleft : op.stratum.parser (Level.inner d) (pre₁ ++ o :: (ts ++ t :: post)) =
          op.stratum.extend (Level.inner d) l (o :: (ts ++ t :: post)) :=
        Stratum.enters_of_derives left hd hu (by rw [peek, ho]; exact Stratum.admits_mark op)
      refine ⟨stop, ?_⟩
      rw [List.append_assoc, List.cons_append, hleft]
      exact chainFrom_error ho (Stratum.operator?_mark op) hstop

/-! ### Spellings that end promptly -/

section Prompt

variable {α : Type} {spells : α → List Token.Kind → Prop} {F : Token.Kind → Prop}

/-- **What is spelled can be told from what follows it**, if that starts with a token that may
follow. -/
def Prompt (spells : α → List Token.Kind → Prop) (F : Token.Kind → Prop) : Prop :=
  ∀ ⦃a b : α⦄ ⦃u v x y : List Token.Kind⦄, spells a u → spells b v → u ++ x = v ++ y →
    F (Token.Kind.next x) → F (Token.Kind.next y) → a = b ∧ u = v

/-- **Nothing that starts with `w` is a spelling** and something that may follow it. -/
def Bars (spells : α → List Token.Kind → Prop) (F : Token.Kind → Prop) (w : List Token.Kind) :
    Prop :=
  ∀ ⦃a : α⦄ ⦃u x : List Token.Kind⦄, spells a u → w <+: u ++ x → ¬ F (Token.Kind.next x)

/-- What starts with a spelling starts with no other one. -/
theorem Prompt.cancel {a b : α} {u v w x : List Token.Kind} (h : Prompt spells F) (hu : spells a u)
    (hv : spells b v) (hpre : u ++ w <+: v ++ x) (hne : w ≠ []) (hw : F (Token.Kind.next w))
    (hx : F (Token.Kind.next x)) : w <+: x := by
  obtain ⟨y, hy⟩ := hpre
  obtain ⟨k, w, rfl⟩ := List.exists_cons_of_ne_nil hne
  rw [List.append_assoc] at hy
  obtain ⟨rfl, rfl⟩ := h hu hv hy hw hx
  exact ⟨y, List.append_cancel_left hy⟩

end Prompt

/-- A list and the one it starts with have the same first token. -/
theorem head?_of_starts {w v : List Token.Kind} {k a : Token.Kind} (h : w ++ [k] <+: a :: v) :
    (w ++ [k]).head? = some a := by
  obtain ⟨c, cs, hcs⟩ := List.exists_cons_of_ne_nil (List.concat_ne_nil k w)
  rw [hcs] at h ⊢
  exact congrArg some (List.cons_prefix_cons.1 h).1

/-- Tokens of given kinds. -/
def Token.ofKinds (w : List Token.Kind) : List Token :=
  w.map fun k => ⟨k, 0, 0⟩

@[simp]
theorem Token.map_kind_ofKinds (w : List Token.Kind) : (ofKinds w).map Token.kind = w := by
  simp [ofKinds, Function.comp_def]

theorem Token.peek_ofKinds (w : List Token.Kind) : peek (ofKinds w) = Token.Kind.next w := by
  cases w <;> rfl

/-- A parser that goes deep enough takes an expression and leaves what follows. -/
theorem Expr.Derives.parser_ofKinds {e : Expr} {w x : List Token.Kind} {d : Nat}
    (h : Expr.Derives .comparison e w) (hd : e.nest ≤ d)
    (hx : Stratum.comparison.Ends (Token.Kind.next x)) :
    Stratum.comparison.parser (Level.inner d) (Token.ofKinds (w ++ x)) =
      .ok (e, Token.ofKinds x) := by
  have htakes := Stratum.parser_takes (d := d) ⟨h, hd⟩ (Token.map_kind_ofKinds w)
    (Token.peek_ofKinds x ▸ hx)
  simpa [Token.ofKinds] using htakes

theorem Expr.prompt_derives : Prompt (Expr.Derives .comparison) Stratum.comparison.Ends := by
  intro e e' u v x y he he' heq hx hy
  have read := he.parser_ofKinds (Nat.le_max_left e.nest e'.nest) hx
  have read' := he'.parser_ofKinds (Nat.le_max_right e.nest e'.nest) hy
  rw [← heq, read] at read'
  obtain ⟨rfl, hrest⟩ := Prod.mk.inj (Except.ok.inj read')
  obtain rfl : x = y := by simpa using congrArg (List.map Token.kind) hrest
  exact ⟨rfl, List.append_cancel_right heq⟩

/-- **No expression goes on where one breaks off.** -/
theorem Expr.Breaks.bars {w : List Token.Kind} {k : Token.Kind} (h : Breaks .comparison w k) :
    Bars (Expr.Derives .comparison) Stratum.comparison.Ends (w ++ [k]) := by
  rintro e u x he ⟨y, hy⟩ hx
  obtain ⟨d, hrefuses, hd⟩ :=
    (h.eventually_refuses.and (Filter.eventually_ge_atTop e.nest)).exists
  have read := he.parser_ofKinds hd hx
  obtain ⟨stop, hstop⟩ := hrefuses (t := ⟨k, 0, 0⟩) (Token.map_kind_ofKinds w) rfl
    (Token.ofKinds y)
  rw [← hy] at read
  simp only [Token.ofKinds, List.map_append, List.map_cons, List.append_assoc,
    List.singleton_append] at read hstop
  rw [read] at hstop
  cases hstop

end RigScript
