import RigScript.Proofs.Program.BreaksAll

/-!
# Where the parsers stop

A parser that fails has stepped over some tokens and stops at the one after them. These tokens
break off at that one, unless the limit on nesting was reached. As with what parsers return, this
goes through sequences of parsers, through chains of operators and through lists of arguments.

## Main definitions

* `RigScript.Parser.StopsAt`: a stop at one of the tokens, with a condition on those before it
* `RigScript.Parser.Stops`: where a parser stops when it fails
* `RigScript.Parser.Passes`: what a parser steps over when it succeeds, and what comes after that

## Main results

* `RigScript.Stratum.parser_stops`: a stratum's parser stops where an expression breaks off
* `RigScript.Segment.parseAll_stops`: reading a program stops where it breaks off
-/

namespace RigScript

namespace Parser

variable {α β : Type}

/-! ### Passing and stopping -/

/-- The stop is at one of the tokens. The kinds of the tokens before it and its own kind satisfy a
condition, unless the limit on nesting was reached. -/
def StopsAt (stop : Stop) (ts : List Token) (P : List Token.Kind → Token.Kind → Prop) : Prop :=
  ∃ pre t post, ts = pre ++ t :: post ∧ stop.offset = t.start ∧
    (stop.fault ≠ .nestedTooDeep → P (pre.map Token.kind) t.kind)

/-- Where the parser stops if it fails on tokens that contain the end of the script. -/
def Stops (p : Parser α) (P : List Token.Kind → Token.Kind → Prop) : Prop :=
  ∀ ⦃ts : List Token⦄ ⦃stop : Stop⦄, p ts = .error stop → .finish ∈ ts.map Token.kind →
    StopsAt stop ts P

/-- When the parser succeeds, the token after those it has stepped over satisfies a condition. -/
def Leaves (p : Parser α) (follow : Token.Kind → Prop) : Prop :=
  ∀ ⦃ts : List Token⦄ ⦃a : α⦄ ⦃rest : List Token⦄, p ts = .ok (a, rest) → follow (peek rest)

/-- What the parser returns is spelled by the tokens it has stepped over, the end of the script is
not among them, and the token after them satisfies a condition. -/
structure Passes (p : Parser α) (spells : α → List Token.Kind → Prop)
    (follow : Token.Kind → Prop) : Prop where
  reads : p.Reads spells
  finish_notMem : ∀ a w, spells a w → .finish ∉ w
  leaves : p.Leaves follow

section StopsAt

variable {stop : Stop} {P Q : List Token.Kind → Token.Kind → Prop}

/-- What holds of the tokens up to a stop may depend on what the first of them is not. -/
theorem StopsAt.mono_head {ts : List Token} (h : StopsAt stop ts P)
    (hPQ : ∀ w k, P w k → (∀ m, peek ts ≠ m → (w ++ [k]).head? ≠ some m) → Q w k) :
    StopsAt stop ts Q := by
  obtain ⟨pre, t, post, rfl, hoffset, hP⟩ := h
  refine ⟨pre, t, post, rfl, hoffset, fun hfault => hPQ _ _ (hP hfault) fun m hm => ?_⟩
  rwa [head?_eq_peek pre t post, ne_eq, Option.some_inj]

theorem StopsAt.mono {ts : List Token} (h : StopsAt stop ts P) (hPQ : ∀ w k, P w k → Q w k) :
    StopsAt stop ts Q :=
  h.mono_head fun w k hP _ => hPQ w k hP

/-- A stop at a token after those that were stepped over. -/
theorem StopsAt.append {pre rest : List Token}
    (h : StopsAt stop rest fun w k => P (pre.map Token.kind ++ w) k) :
    StopsAt stop (pre ++ rest) P := by
  obtain ⟨pre', t, post, rfl, hoffset, hP⟩ := h
  exact ⟨pre ++ pre', t, post, (List.append_assoc ..).symm, hoffset, by rwa [List.map_append]⟩

theorem StopsAt.cons {t : Token} {ts : List Token} {k : Token.Kind} (hk : t.kind = k)
    (h : StopsAt stop ts fun w k' => P (k :: w) k') : StopsAt stop (t :: ts) P := by
  subst hk
  have happend : StopsAt stop ([t] ++ ts) P := .append h
  exact happend

theorem StopsAt.head {t : Token} {ts : List Token} (hoffset : stop.offset = t.start)
    (hP : stop.fault ≠ .nestedTooDeep → P [] t.kind) : StopsAt stop (t :: ts) P :=
  ⟨[], t, ts, rfl, hoffset, hP⟩

end StopsAt

theorem finish_mem_tail {t : Token} {ts : List Token} (h : .finish ∈ (t :: ts).map Token.kind)
    (ht : t.kind ≠ .finish) : .finish ∈ ts.map Token.kind :=
  (List.mem_cons.1 h).resolve_left ht.symm

/-- The end of the script comes after what a parser has stepped over. -/
theorem Passes.exists_append {p : Parser α} {R : α → List Token.Kind → Prop}
    {F : Token.Kind → Prop} (h : p.Passes R F) {ts rest : List Token} {a : α}
    (hp : p ts = .ok (a, rest)) (hfinish : .finish ∈ ts.map Token.kind) :
    ∃ pre, ts = pre ++ rest ∧ R a (pre.map Token.kind) ∧ .finish ∈ rest.map Token.kind := by
  obtain ⟨pre, rfl, hR⟩ := h.reads hp
  refine ⟨pre, rfl, hR, ?_⟩
  rw [List.map_append, List.mem_append] at hfinish
  exact hfinish.resolve_left (h.finish_notMem a _ hR)

theorem Stops.mono {p : Parser α} {P Q : List Token.Kind → Token.Kind → Prop} (h : p.Stops P)
    (hPQ : ∀ w k, P w k → Q w k) : p.Stops Q :=
  fun _ _ hp hfinish => (h hp hfinish).mono hPQ

/-- The failure of one parser after another. -/
theorem bind_eq_error {p : Parser α} {f : α → Parser β} {ts : List Token} {stop : Stop}
    (h : (p >>= f) ts = .error stop) :
    p ts = .error stop ∨ ∃ a mid, p ts = .ok (a, mid) ∧ f a mid = .error stop := by
  simp only [bind, StateT.bind, Except.bind] at h
  split at h
  · next e he => cases h; exact .inl he
  · next v hv => exact .inr ⟨v.1, v.2, hv, h⟩

/-- A sequence of parsers stops where the first one does, or where the second one does after what
the first one has stepped over. -/
theorem Stops.bind {p : Parser α} {f : α → Parser β} {R : α → List Token.Kind → Prop}
    {F : Token.Kind → Prop} {S : List Token.Kind → Token.Kind → Prop} (hp : p.Stops S)
    (passes : p.Passes R F)
    (hf : ∀ a u, R a u → (f a).Stops fun v k => F (Token.Kind.next (v ++ [k])) → S (u ++ v) k) :
    (p >>= f).Stops S := by
  intro ts stop h hfinish
  rcases bind_eq_error h with hstop | ⟨a, mid, hok, hstop⟩
  · exact hp hstop hfinish
  · obtain ⟨pre, rfl, hR, hmid⟩ := passes.exists_append hok hfinish
    have hpeek := passes.leaves hok
    obtain ⟨pre', t, post, rfl, hoffset, hS⟩ := hf a _ hR hstop hmid
    rw [← next_eq_peek] at hpeek
    exact .append ⟨pre', t, post, rfl, hoffset, fun hfault => hS hfault hpeek⟩

theorem Stops.bind_pure {p : Parser α} {S : List Token.Kind → Token.Kind → Prop} (hp : p.Stops S)
    (g : α → β) : (p >>= fun a => pure (g a)).Stops S := by
  intro ts stop h hfinish
  rcases bind_eq_error h with hstop | ⟨a, mid, -, hpure⟩
  · exact hp hstop hfinish
  · cases hpure

theorem Leaves.bind_pure {p : Parser α} {F : Token.Kind → Prop} (hp : p.Leaves F) (g : α → β) :
    (p >>= fun a => pure (g a)).Leaves F := by
  intro ts b rest h
  obtain ⟨a, mid, ha, hpure⟩ := bind_eq_ok h
  cases hpure
  exact hp ha

theorem Leaves.bind {p : Parser α} {f : α → Parser β} {F : Token.Kind → Prop}
    (hf : ∀ a, (f a).Leaves F) : (p >>= f).Leaves F := by
  intro ts b rest h
  obtain ⟨a, mid, -, hmid⟩ := bind_eq_ok h
  exact hf a hmid

theorem expect_stops (m : Mark) : (expect m).Stops fun w k => w = [] ∧ k ≠ .mark m := by
  intro ts stop h hfinish
  cases ts with
  | nil => cases hfinish
  | cons t ts =>
      simp only [expect] at h
      split at h
      · cases h
      · next hk =>
        cases h
        exact .head rfl fun _ => ⟨rfl, hk⟩

theorem expect_passes (m : Mark) :
    (expect m).Passes (fun _ w => w = [.mark m]) fun _ => True where
  reads := expect_reads m
  finish_notMem := by
    rintro _ _ rfl
    simp
  leaves _ _ _ _ := trivial

/-! ### Chains of operators and arguments -/

section Chain

variable {operator? : Mark → Option BinaryOp} {operand : Parser Expr} {progress : operand.Consumes}

/-- A chain stops where one of its operands does. -/
theorem chainFrom_stops {P Q : Expr → List Token.Kind → Prop} {F : Token.Kind → Prop}
    {B S : List Token.Kind → Token.Kind → Prop} (hQ : operand.Passes Q F) (hB : operand.Stops B)
    (extend : ∀ m op l u r v, operator? m = some op → P l u → Q r v →
      P (.binary op l r) (u ++ .mark m :: v))
    (breaks : ∀ m op l u w k, operator? m = some op → P l u → B w k → S (u ++ .mark m :: w) k)
    {left : Expr} {u : List Token.Kind} (hP : P left u) :
    Stops (chainFrom operator? operand progress left) fun w k => S (u ++ w) k := by
  intro ts stop h hfinish
  fun_induction chainFrom operator? operand progress left ts generalizing u with
  | case1 | case4 | case5 => cases h
  | case2 left t ts m hk op hop right mid hmid ih =>
      -- The chain so far becomes the left side of the next operator.
      obtain ⟨pre, rfl, hR, hrest⟩ := hQ.exists_append hmid (finish_mem_tail hfinish (by simp [hk]))
      refine .cons hk (.append ?_)
      simpa using ih (extend m op left u right _ hop hP hR) h hrest
  | case3 left t ts m hk op hop e he =>
      cases h
      refine .cons hk ((hB he (finish_mem_tail hfinish (by simp [hk]))).mono fun w k hw => ?_)
      exact breaks m op left u w k hop hP hw

/-- Behind a chain there is a token that may follow its operands and is none of its operators. -/
theorem chainFrom_leaves {F : Token.Kind → Prop} (hF : operand.Leaves F) {left e : Expr}
    {ts rest : List Token} (h : chainFrom operator? operand progress left ts = .ok (e, rest))
    (hts : F (peek ts)) : F (peek rest) ∧ ∀ m, peek rest = .mark m → operator? m = none := by
  fun_induction chainFrom operator? operand progress left ts with
  | case1 => cases h; exact ⟨hts, fun m hm => by cases hm⟩
  | case2 left t ts m hk op hop right mid hmid ih => exact ih h (hF hmid)
  | case3 => cases h
  | case4 left t ts m hk hop =>
      cases h
      refine ⟨hts, fun m' hm' => ?_⟩
      obtain rfl := Token.Kind.mark.inj (hk.symm.trans hm')
      exact hop
  | case5 left t ts hk =>
      cases h
      exact ⟨hts, fun m hm => absurd hm (hk m)⟩

end Chain

section Arguments

variable {expr : Parser Expr} {progress : expr.Consumes}

/-- The arguments of a call stop where one of them does, or after one that is followed neither by a
comma nor by the closing bracket. -/
theorem arguments_stops {R : Expr → List Token.Kind → Prop} {F : Token.Kind → Prop}
    {B : List Token.Kind → Token.Kind → Prop} (hR : expr.Passes R F) (hB : expr.Stops B) :
    (arguments expr progress).Stops fun w k =>
      ∃ (args : List (Expr × List Token.Kind)) (v : List Token.Kind), (∀ a ∈ args, R a.1 a.2) ∧
        w = Token.Kind.argumentsBefore (args.map Prod.snd) ++ v ∧
        (B v k ∨ ∃ e, R e v ∧ F k ∧ k ≠ .mark .comma ∧ k ≠ .mark .closeParen) := by
  intro ts stop h hfinish
  unfold arguments at h
  fun_induction argumentsFrom expr progress ts with
  | case1 ts e he =>
      cases h
      exact (hB he hfinish).mono fun w k hw => ⟨[], w, by simp, rfl, .inl hw⟩
  | case2 ts e he =>
      obtain ⟨pre, -, -, hnil⟩ := hR.exists_append he hfinish
      cases hnil
  | case3 ts e t rest he hk stop' hrest ih =>
      cases h
      obtain ⟨pre, rfl, hRe, hmem⟩ := hR.exists_append he hfinish
      refine .append (.cons hk ((ih hrest (finish_mem_tail hmem (by simp [hk]))).mono ?_))
      rintro _ k ⟨args, v, each, rfl, hv⟩
      refine ⟨(e, pre.map Token.kind) :: args, v, List.forall_mem_cons.2 ⟨hRe, each⟩, ?_, hv⟩
      simp [Token.Kind.argumentsBefore]
  | case4 | case5 => cases h
  | case6 ts e t rest he hcomma hclose =>
      cases h
      obtain ⟨pre, rfl, hRe, -⟩ := hR.exists_append he hfinish
      refine .append (.head rfl fun _ => ⟨[], _, by simp, rfl, .inr ⟨e, ?_, hR.leaves he, hcomma,
        hclose⟩⟩)
      simpa using hRe

end Arguments

end Parser

open RigScript.Parser

/-! ### Strata -/

namespace Stratum

/-- A token that may follow an operand of a chain and is none of its operators may follow it. -/
theorem ends_of_next {s : Stratum} {k : Token.Kind} (h : s.next.Ends k)
    (hop : ∀ m, k = .mark m → s.operator? m = none) : s.Ends k := by
  intro op hk
  have hlt := h op hk
  have hne : op.stratum ≠ s := by
    rintro rfl
    have hnone := hop op.mark hk
    rw [operator?_mark] at hnone
    cases hnone
  cases s <;> cases op <;> simp_all [BinaryOp.stratum, next, rank]

theorem chain_leaves {inner : Option Level} {s : Stratum} (hs : s.rank < unary.rank)
    (h : (s.next.parser inner).Leaves s.next.Ends) : (s.parser inner).Leaves s.Ends := by
  rw [parser_eq_chain inner hs]
  intro ts e rest hp
  obtain ⟨left, mid, hleft, hrest⟩ := bind_eq_ok hp
  obtain ⟨hends, hop⟩ := chainFrom_leaves h hrest (h hleft)
  exact ends_of_next hends hop

/-- Behind an expression of a stratum there is a token that ends it. -/
theorem parser_leaves (inner : Option Level) (s : Stratum) : (s.parser inner).Leaves s.Ends := by
  have operands {s : Stratum} (hs : unary.rank ≤ s.rank) : (s.parser inner).Leaves s.Ends :=
    fun _ _ rest _ => ends_of_unary_le hs (peek rest)
  have products := chain_leaves (s := .product) (by decide) (operands (Nat.le_refl _))
  have sums := chain_leaves (s := .sum) (by decide) products
  cases s with
  | comparison => exact chain_leaves (by decide) sums
  | sum => exact sums
  | product => exact products
  | unary | primary => exact operands (by decide)

theorem parser_passes (d : Nat) (s : Stratum) :
    (s.parser (Level.inner d)).Passes (Expr.Derives s) s.Ends where
  reads := (parser_reads d s).mono fun _ _ h => h.1
  finish_notMem _ _ h := Expr.finish_notMem_of_derives h
  leaves := parser_leaves _ s

section Stops

variable {inner : Option Level}

/-- The next level, if there is one, passes and stops as it should. -/
def StopsBelow (inner : Option Level) : Prop :=
  ∀ l, inner = some l → l.expr.Passes (Expr.Derives .comparison) comparison.Ends ∧
    l.expr.Stops (Expr.Breaks .comparison) ∧ l.unary.Stops (Expr.Breaks .unary)

/-- The limit on nesting is reached at a token like any other. -/
theorem descend_stops {α : Type} {p : Level → Parser α}
    {P : List Token.Kind → Token.Kind → Prop} (h : ∀ l, inner = some l → (p l).Stops P) :
    (Level.descend inner p).Stops P := by
  cases inner with
  | some l => exact h l rfl
  | none =>
      intro ts stop hp hfinish
      cases hp
      cases ts with
      | nil => cases hfinish
      | cons t ts => exact .head rfl fun hfault => absurd rfl hfault

theorem call_stops (h : StopsBelow inner) (f : String) :
    (Level.call inner f).Stops fun w k => Expr.Breaks .primary (.word f :: w) k := by
  refine ((expect_stops .openParen).mono ?_).bind (expect_passes .openParen) fun _ u hu => ?_
  · rintro _ k ⟨rfl, hk⟩
    exact .name f hk
  subst hu
  refine (descend_stops fun l hl => ?_).bind_pure _
  obtain ⟨passes, stops, -⟩ := h l hl
  refine (arguments_stops passes stops).mono ?_
  rintro _ k ⟨args, v, each, rfl, hv | ⟨e, he, hends, hcomma, hclose⟩⟩ -
  · exact .argument f each hv
  · exact .arguments f each he hends hcomma hclose

theorem bracketed_stops (h : StopsBelow inner) :
    (Level.bracketed inner).Stops fun w k => Expr.Breaks .primary (.mark .openParen :: w) k := by
  have stops : (Level.descend inner Level.expr).Stops (Expr.Breaks .comparison) :=
    descend_stops fun l hl => (h l hl).2.1
  have passes : (Level.descend inner Level.expr).Passes (Expr.Derives .comparison)
      comparison.Ends := by
    cases inner with
    | some l => exact (h l rfl).1
    | none =>
        exact ⟨stopAt_reads _ _, fun _ _ => Expr.finish_notMem_of_derives,
          fun _ _ _ h => by cases h⟩
  refine (stops.mono fun _ _ => .bracketed).bind passes fun e u he => ?_
  refine ((expect_stops .closeParen).mono ?_).bind_pure _
  rintro _ k ⟨rfl, hk⟩ hends
  rw [List.append_nil]
  exact .brackets he hends hk

theorem signed_stops (h : StopsBelow inner) (op : UnaryOp) :
    (Level.signed inner op).Stops fun w k => Expr.Breaks .unary (.mark op.mark :: w) k := by
  refine (descend_stops fun l hl => ?_).bind_pure _
  exact (h l hl).2.2.mono fun _ _ => .signed op

theorem primary_stops (h : StopsBelow inner) :
    (Level.primary inner).Stops (Expr.Breaks .primary) := by
  intro ts stop hp hfinish
  cases ts with
  | nil => cases hfinish
  | cons t ts =>
      simp only [Level.primary] at hp
      split at hp
      · cases hp
      · cases hp
      · next f hk => exact .cons hk (call_stops h f hp (finish_mem_tail hfinish (by simp [hk])))
      · next hk => exact .cons hk (bracketed_stops h hp (finish_mem_tail hfinish (by simp [hk])))
      · next hnumber hpath hword hopen =>
        cases hp
        refine .head rfl fun _ => .start ?_
        intro hstarts
        generalize t.kind = k at *
        cases hstarts with
        | number v => exact hnumber v rfl
        | path p => exact hpath p rfl
        | word f => exact hword f rfl
        | openParen => exact hopen rfl

theorem signedOperand_stops (h : StopsBelow inner) :
    (Level.signedOperand inner).Stops (Expr.Breaks .unary) := by
  intro ts stop hp hfinish
  cases ts with
  | nil => cases hfinish
  | cons t ts =>
      simp only [Level.signedOperand] at hp
      split at hp
      · next hk =>
        exact .cons hk (signed_stops h .minus hp (finish_mem_tail hfinish (by simp [hk])))
      · next hk =>
        exact .cons hk (signed_stops h .plus hp (finish_mem_tail hfinish (by simp [hk])))
      · next hminus hplus =>
        refine (primary_stops h hp hfinish).mono_head fun w k hw hne => .unsigned hw fun op => ?_
        cases op with
        | minus => exact hne _ hminus
        | plus => exact hne _ hplus

theorem chain_stops {d : Nat} {s : Stratum} (hs : s.rank < unary.rank)
    (h : (s.next.parser (Level.inner d)).Stops (Expr.Breaks s.next)) :
    (s.parser (Level.inner d)).Stops (Expr.Breaks s) := by
  rw [parser_eq_chain _ hs]
  have passes := parser_passes d s.next
  refine (h.mono fun _ _ => .first hs).bind passes fun left u hl => ?_
  refine (chainFrom_stops (P := Expr.Derives s) (S := Expr.Breaks s) passes h ?_ ?_
    (.operand s hl)).mono fun _ _ hw _ => hw
  · rintro m op l u r v hop hl hr
    obtain ⟨rfl, rfl⟩ := eq_mark_of_operator? hop
    exact hl.binary op hr
  · rintro m op l u w k hop hl hw
    obtain ⟨rfl, rfl⟩ := eq_mark_of_operator? hop
    exact .right op hl hw

/-- One level of nesting: if the level below stops where it should, so do all strata. -/
theorem stops_of_stopsBelow {d : Nat} (h : StopsBelow (Level.inner d)) (s : Stratum) :
    (s.parser (Level.inner d)).Stops (Expr.Breaks s) := by
  have products := chain_stops (s := .product) (by decide) (signedOperand_stops h)
  have sums := chain_stops (s := .sum) (by decide) products
  cases s with
  | comparison => exact chain_stops (by decide) sums
  | sum => exact sums
  | product => exact products
  | unary => exact signedOperand_stops h
  | primary => exact primary_stops h

end Stops

/-- **The parser of a stratum stops where an expression of the stratum breaks off**, unless it
reaches the limit on nesting. -/
theorem parser_stops (d : Nat) (s : Stratum) :
    (s.parser (Level.inner d)).Stops (Expr.Breaks s) := by
  induction d generalizing s with
  | zero => exact stops_of_stopsBelow (fun l hl => by cases hl) s
  | succ d ih =>
      refine stops_of_stopsBelow (fun l hl => ?_) s
      cases hl
      rw [expr_ofDepth, unary_ofDepth]
      exact ⟨parser_passes d .comparison, ih .comparison, ih .unary⟩

end Stratum

theorem Expr.parser_passes : Expr.parser.Passes (Derives .comparison) Stratum.comparison.Ends := by
  rw [Expr.parser, Stratum.expr_ofDepth]
  exact Stratum.parser_passes maxNesting .comparison

theorem Expr.parser_stops : Expr.parser.Stops (Breaks .comparison) := by
  rw [Expr.parser, Stratum.expr_ofDepth]
  exact Stratum.parser_stops maxNesting .comparison

/-! ### Sentences and blocks -/

namespace Sentence

theorem targetPath_stops : targetPath.Stops fun w k => w = [] ∧ ∀ p, k ≠ .path p := by
  intro ts stop h hfinish
  cases ts with
  | nil => cases hfinish
  | cons t ts =>
      simp only [targetPath] at h
      split at h
      · cases h
      · next hk =>
        cases h
        exact .head rfl fun _ => ⟨rfl, hk⟩

theorem targetPath_passes : targetPath.Passes (fun p w => w = [.path p]) fun _ => True where
  reads := targetPath_reads
  finish_notMem := by
    rintro p _ rfl
    simp
  leaves _ _ _ _ := trivial

/-- A sentence is read up to where it breaks off. -/
theorem parser_stops : Sentence.parser.Stops Sentence.Breaks := by
  refine (targetPath_stops.mono ?_).bind targetPath_passes fun path u hu => ?_
  · rintro _ k ⟨rfl, hk⟩
    exact .target hk
  subst hu
  refine ((expect_stops .assign).mono ?_).bind (expect_passes .assign) fun _ v hv => ?_
  · rintro _ k ⟨rfl, hk⟩ -
    exact .assign path hk
  subst hv
  exact (Expr.parser_stops.mono fun w k hw _ _ => .value path hw).bind_pure _

theorem parser_passes : Sentence.parser.Passes Sentence.Derives Stratum.comparison.Ends where
  reads := parser_reads.mono fun _ _ h => h.1
  finish_notMem _ _ h := finish_notMem_of_derives h
  leaves := .bind fun _ => .bind fun _ => Expr.parser_passes.leaves.bind_pure _

/-- The sentences of a block are read up to where they break off. -/
theorem blockFrom_stops : Stops blockFrom BreaksAll := by
  intro ts stop h hfinish
  fun_induction blockFrom ts with
  | case1 => cases h
  | case2 ts hclose e he =>
      cases h
      exact (parser_stops he hfinish).mono_head fun _ _ hw hne => .sentence hw (hne _ hclose)
  | case3 ts _ s hs =>
      obtain ⟨pre, -, -, hnil⟩ := parser_passes.exists_append hs hfinish
      cases hnil
  | case4 ts _ s t rest hs hk e he ih =>
      cases h
      obtain ⟨pre, rfl, hd, hmem⟩ := parser_passes.exists_append hs hfinish
      refine .append (.cons hk ((ih he (finish_mem_tail hmem (by simp [hk]))).mono ?_))
      exact fun _ _ => .cons hd
  | case5 | case6 => cases h
  | case7 ts _ s t rest hs hsemicolon hclose =>
      cases h
      obtain ⟨pre, rfl, hd, -⟩ := parser_passes.exists_append hs hfinish
      refine .append (.head rfl fun _ => ?_)
      rw [List.append_nil]
      exact .after hd (parser_passes.leaves hs) hsemicolon hclose

theorem block_stops : Sentence.block.Stops BreaksBlock := by
  refine ((expect_stops .openBrace).mono ?_).bind (expect_passes .openBrace) fun _ u hu => ?_
  · rintro _ k ⟨rfl, hk⟩
    exact .opening hk
  subst hu
  exact blockFrom_stops.mono fun _ _ hw _ => .body hw

theorem block_passes : Sentence.block.Passes DerivesBlock fun _ => True where
  reads := block_reads.mono fun _ _ h => h.1
  finish_notMem _ _ h := finish_notMem_of_derivesBlock h
  leaves _ _ _ _ := trivial

end Sentence

/-! ### Segments and programs -/

namespace Segment

/-- A choice is read up to where it breaks off. -/
theorem conditionParser_stops :
    conditionParser.Stops fun w k => Segment.Breaks (.mark .ifWord :: w) k := by
  refine (Expr.parser_stops.mono fun _ _ => .test).bind Expr.parser_passes fun test u ht => ?_
  refine (Sentence.block_stops.mono fun w k hw ends => .thenBlock ht ends hw).bind
    Sentence.block_passes fun ss v hv => ?_
  refine ((expect_stops .elseWord).mono ?_).bind (expect_passes .elseWord) fun _ x hx => ?_
  · rintro _ k ⟨rfl, hk⟩ - -
    rw [List.append_nil]
    exact .elseWord ht hv hk
  subst hx
  exact (Sentence.block_stops.mono fun w k hw _ _ _ => .elseBlock ht hv hw).bind_pure _

/-- A sentence and its semicolon are read up to where they break off. -/
theorem sentenceParser_stops : sentenceParser.Stops fun w k =>
    (w ++ [k]).head? ≠ some (.mark .ifWord) → Segment.Breaks w k := by
  refine (Sentence.parser_stops.mono fun _ _ => .sentence).bind Sentence.parser_passes
    fun s u hs => ?_
  refine ((expect_stops .semicolon).mono ?_).bind_pure _
  rintro _ k ⟨rfl, hk⟩ ends -
  rw [List.append_nil]
  exact .semicolon hs ends hk

theorem parser_stops : Segment.parser.Stops Segment.Breaks := by
  intro ts stop h hfinish
  unfold Segment.parser at h
  split at h
  · next hk =>
    cases ts with
    | nil => cases hk
    | cons t ts =>
        have hk : t.kind = .mark .ifWord := hk
        exact .cons hk (conditionParser_stops h (finish_mem_tail hfinish (by simp [hk])))
  · next hk =>
    exact (sentenceParser_stops h hfinish).mono_head fun _ _ hw hne => hw (hne _ hk)

theorem parser_passes : Segment.parser.Passes Segment.Derives fun _ => True where
  reads := parser_reads.mono fun _ _ h => h.1
  finish_notMem _ _ h := finish_notMem_of_derives h
  leaves _ _ _ _ := trivial

/-- **A program is read up to where it breaks off**, unless the limit on nesting is reached. -/
theorem parseAll_stops {ts : List Token} {stop : Stop} (h : parseAll ts = .error stop)
    (hfinish : .finish ∈ ts.map Token.kind) : StopsAt stop ts BreaksAll := by
  fun_induction parseAll ts with
  | case1 => cases h
  | case2 ts hk e he =>
      cases h
      exact (parser_stops he hfinish).mono_head fun _ _ hw hne => .segment hw (hne _ hk)
  | case3 ts hk s rest hs e he ih =>
      cases h
      obtain ⟨pre, rfl, hd, hmem⟩ := parser_passes.exists_append hs hfinish
      exact .append ((ih he hmem).mono fun _ _ => .cons hd)
  | case4 => cases h

end Segment

end RigScript
