import RigScript.Proofs.Program.Cursor
import RigScript.Proofs.Program.Faults

/-!
# Readings advance

Every routine comes to an end from every cursor inside the tokens of a script, whether or not the
script is well-formed. If it returns, the cursor has moved forward, is still at a token and is as
deep as before; if not, it stops at a fault of the script, and in no case is the cursor lost. What
is returned, where the cursor is left and where a routine stops are what the parser has for the
tokens from the cursor on, at the level of nesting that the depth stands for.

The end comes because whatever is called again is called further on. A sign, the name of a function
or a bracket is stepped over before what it applies to, and an operator, a comma, a semicolon or a
whole segment before a loop goes round. None of them is the end of the script, the only token that
cannot be stepped over.

## Main definitions

* `RigScript.Cursor.Follows`: a routine comes to an end from a cursor as a parser does
* `RigScript.Cursor.Advances`: a routine that comes to an end from every cursor, further on
* `RigScript.Cursor.Tracks`: a routine that does what a parser does

## Main results

* `RigScript.Cursor.followsAll`: the routines of all strata follow the parsers
* `RigScript.Cursor.routines_advance`: **all routines advance, and do what the parsers do**
-/

namespace RigScript

/-! ### The loops of the parsers -/

namespace Parser

theorem chainFrom_operator {operator? : Mark → Option BinaryOp} {operand : Parser Expr}
    {progress : operand.Consumes} {left : Expr} {t : Token} {m : Mark} {op : BinaryOp}
    (hk : t.kind = .mark m) (hop : operator? m = some op) (rest : List Token) :
    chainFrom operator? operand progress left (t :: rest) =
      (operand >>= fun right =>
        chainFrom operator? operand progress (.binary op left right)) rest := by
  rw [chainFrom]
  simp only [hk, hop, bind, StateT.bind, Except.bind]
  split <;> rename_i hoperand <;> rw [hoperand]

/-- What follows an item of a list: a separator and more items, or what closes the list. -/
def itemsAfter {α : Type} (separator closing : Mark) (item : α) (more : Parser (List α)) :
    Parser (List α) := fun ts =>
  match ts with
  | [] => .error ⟨0, .expected (.mark closing) .finish⟩
  | t :: rest =>
    if t.kind = .mark separator then
      match more rest with
      | .error stop => .error stop
      | .ok (items, last) => .ok (item :: items, last)
    else if t.kind = .mark closing then .ok ([item], rest)
    else .error ⟨t.start, .expected (.mark closing) t.kind⟩

theorem arguments_eq_itemsAfter (expr : Parser Expr) (progress : expr.Consumes) :
    arguments expr progress =
      expr >>= fun e => itemsAfter .comma .closeParen e (arguments expr progress) := by
  funext ts
  rw [arguments, argumentsFrom]
  simp only [bind, StateT.bind, Except.bind]
  split <;> rename_i hexpr <;> simp only [hexpr, itemsAfter]
  next rest => cases argumentsFrom expr progress rest <;> rfl

end Parser

theorem Sentence.blockFrom_eq_itemsAfter {ts : List Token}
    (h : Parser.peek ts ≠ .mark .closeBrace) :
    blockFrom ts =
      (Sentence.parser >>= fun s => Parser.itemsAfter .semicolon .closeBrace s blockFrom) ts := by
  rw [blockFrom, if_neg h]
  simp only [bind, StateT.bind, Except.bind]
  split <;> rename_i hsentence <;> simp only [hsentence, Parser.itemsAfter]
  next rest => cases blockFrom rest <;> rfl

theorem Segment.parseAll_eq_error {ts : List Token} {stop : Stop} (h : Parser.peek ts ≠ .finish)
    (hstop : Segment.parser ts = .error stop ∨
      ∃ s rest, Segment.parser ts = .ok (s, rest) ∧ parseAll rest = .error stop) :
    parseAll ts = .error stop := by
  rw [parseAll, if_neg h]
  rcases hstop with hstop | ⟨s, rest, hs, hstop⟩
  · split <;> rename_i hr <;> rw [hstop] at hr <;> cases hr
    rfl
  · split <;> rename_i hr <;> rw [hs] at hr <;> cases hr
    rw [hstop]

namespace Cursor

/-- What holds of a cursor whenever it holds of all that are further on holds of every cursor inside
the tokens. -/
@[elab_as_elim]
theorem Inside.forward {tokens : List Token} {motive : (c : Cursor) → c.Inside tokens → Prop}
    (step : ∀ (c : Cursor) (h : c.Inside tokens),
      (∀ (c' : Cursor) (h' : c'.Inside tokens), c.position < c'.position → motive c' h') →
        motive c h)
    (c : Cursor) (h : c.Inside tokens) : motive c h := by
  induction hn : tokens.length - c.position using Nat.strong_induction_on generalizing c with
  | _ n ih =>
    refine step c h fun c' h' hlt => ih (tokens.length - c'.position) ?_ c' h' rfl
    have := h.position_lt
    omega

/-! ### Following a parser -/

section Follows

variable {α β : Type}

/-- From the cursor, the routine comes to an end. It returns with the cursor at least `n` tokens
further on, inside the tokens and at the same depth, or it stops. If `tracked` holds, it **follows**
the parser: the result and the tokens that are left, or the stop, are those of the parser. -/
inductive Follows (tokens : List Token) (tracked : Prop) (n : Nat) (run : Routine α) (p : Parser α)
    (c : Cursor) : Prop
  | returns {a : α} {c' : Cursor} (ends : ComesTo run c (.ok (a, c')))
      (inside : c'.Inside tokens) (position : c.position + n ≤ c'.position)
      (depth : c'.depth = c.depth)
      (same : tracked → p (tokens.drop c.position) = .ok (a, tokens.drop c'.position))
  | stops {stop : Stop} (ends : ComesTo run c (.error (.stopped stop)))
      (same : tracked → p (tokens.drop c.position) = .error stop)

variable {tokens : List Token} {tracked : Prop} {n : Nat} {run : Routine α} {p p' : Parser α}
  {c : Cursor} {t : Token}

theorem Follows.weaken (h : Follows tokens tracked 1 run p c) :
    Follows tokens tracked 0 run p c := by
  cases h with
  | returns ends inside position depth same =>
      exact .returns ends inside (by omega) depth same
  | stops ends same => exact .stops ends same

/-- Only what the parser does with the tokens from here on matters. -/
theorem Follows.congr (h : Follows tokens tracked n run p' c)
    (hp : p (tokens.drop c.position) = p' (tokens.drop c.position)) :
    Follows tokens tracked n run p c := by
  cases h with
  | returns ends inside position depth same =>
      exact .returns ends inside position depth fun hH => hp.trans (same hH)
  | stops ends same => exact .stops ends fun hH => hp.trans (same hH)

theorem Follows.of_call (h : Follows tokens tracked n (fun fuel => run (fuel + 1)) p c) :
    Follows tokens tracked n run p c := by
  cases h with
  | returns ends inside position depth same =>
      exact .returns ends.of_call inside position depth same
  | stops ends same => exact .stops ends.of_call same

/-- What is done without moving the cursor. -/
theorem Follows.of_stay {f : β → Routine α} {first : Reading β} {b : β}
    (hfirst : outcome first c = some (.ok (b, c))) (h : Follows tokens tracked n (f b) p c) :
    Follows tokens tracked n (fun fuel => first >>= fun b => f b fuel) p c := by
  cases h with
  | returns ends inside position depth same =>
      exact .returns ((ComesTo.of_outcome hfirst).bind_ok ends) inside position depth same
  | stops ends same => exact .stops ((ComesTo.of_outcome hfirst).bind_ok ends) same

/-- A step over the token at the cursor, on both sides. -/
theorem Follows.of_ahead {f : β → Routine α} {first : Reading β} {b : β} (hc : c.At tokens t)
    (hfirst : outcome first c = some (.ok (b, c.ahead))) (hp : ∀ rest, p (t :: rest) = p' rest)
    (h : Follows tokens tracked 0 (f b) p' c.ahead) :
    Follows tokens tracked 1 (fun fuel => first >>= fun b => f b fuel) p c := by
  have hdrop : p (tokens.drop c.position) = p' (tokens.drop c.ahead.position) := by
    rw [hc.drop_eq, hp, ahead_position]
  cases h with
  | returns ends inside position depth same =>
      refine .returns ((ComesTo.of_outcome hfirst).bind_ok ends) inside ?_ depth
        fun hH => hdrop.trans (same hH)
      rw [ahead_position] at position
      omega
  | stops ends same =>
      exact .stops ((ComesTo.of_outcome hfirst).bind_ok ends) fun hH => hdrop.trans (same hH)

theorem Follows.bind {f : α → Routine β} {q : α → Parser β} (h : Follows tokens tracked n run p c)
    (hf : ∀ a c', c'.Inside tokens → c.position + n ≤ c'.position → c'.depth = c.depth →
      Follows tokens tracked 0 (f a) (q a) c') :
    Follows tokens tracked n (fun fuel => run fuel >>= fun a => f a fuel) (p >>= q) c := by
  cases h with
  | @returns a c' ends inside position depth same =>
      have hbind : tracked →
          (p >>= q) (tokens.drop c.position) = q a (tokens.drop c'.position) := by
        intro hH
        simp only [Bind.bind, StateT.bind, Except.bind, same hH]
      cases hf a c' inside position depth with
      | returns ends' inside' position' depth' same' =>
          exact .returns (ends.bind_ok ends') inside' (by omega) (depth'.trans depth)
            fun hH => (hbind hH).trans (same' hH)
      | stops ends' same' =>
          exact .stops (ends.bind_ok ends') fun hH => (hbind hH).trans (same' hH)
  | stops ends same =>
      refine .stops ends.bind_error fun hH => ?_
      simp only [Bind.bind, StateT.bind, Except.bind, same hH]

theorem Follows.of_bump {f : Unit → Routine α} (hclosed : Closed tokens) (hc : c.At tokens t)
    (hk : t.kind ≠ .finish) (hp : ∀ rest, p (t :: rest) = p' rest)
    (h : c.ahead.Inside tokens → Follows tokens tracked 0 (f ()) p' c.ahead) :
    Follows tokens tracked 1 (fun fuel => bump tokens >>= fun u => f u fuel) p c :=
  .of_ahead hc (outcome_bump hclosed hc hk) hp (h (hc.ahead_inside hclosed hk))

theorem follows_pure (h : c.Inside tokens) (a : α) :
    Follows tokens tracked 0 (fun _ => pure a) (pure a) c :=
  .returns (.of_outcome (outcome_pure a)) h (Nat.le_refl _) rfl fun _ => rfl

theorem follows_stop {fault : Token → SyntaxFault} (h : c.At tokens t)
    (hp : ∀ rest, p (t :: rest) = .error ⟨t.start, fault t⟩) :
    Follows tokens tracked n (fun _ => stop tokens fault) p c :=
  .stops (.of_outcome (outcome_stop h fault)) fun _ => by rw [h.drop_eq, hp]

theorem follows_expect (hclosed : Closed tokens) (h : c.Inside tokens) (m : Mark) :
    Follows tokens tracked 1 (fun _ => expect tokens m) (Parser.expect m) c := by
  obtain ⟨t, hc⟩ := h.exists_at
  have hlook : outcome (expect tokens m) c = outcome (if t.kind = .mark m then bump tokens
      else stop tokens fun t => .expected (.mark m) t.kind) c :=
    outcome_bind_ok (outcome_look hc)
  by_cases hk : t.kind = .mark m
  · rw [if_pos hk, outcome_bump hclosed hc (by simp [hk])] at hlook
    refine .returns (.of_outcome hlook) (hc.ahead_inside hclosed (by simp [hk])) (Nat.le_refl _)
      rfl fun _ => ?_
    rw [hc.drop_eq, Parser.expect, if_pos hk]
    rfl
  · rw [if_neg hk, outcome_stop hc] at hlook
    refine .stops (.of_outcome hlook) fun _ => ?_
    rw [hc.drop_eq, Parser.expect, if_neg hk]

/-- One level deeper, the parser is the one of the next level. -/
theorem follows_nested {q : Level → Parser α} (h : c.Inside tokens)
    (hrun : c.depth < maxNesting → Follows tokens tracked n run
      (q (.ofDepth (maxNesting - (c.depth + 1)))) c.deeper) :
    Follows tokens tracked n (fun fuel => nested tokens (run fuel))
      (Level.descend (Level.inner (maxNesting - c.depth)) q) c := by
  obtain ⟨t, hc⟩ := h.exists_at
  by_cases hlimit : maxNesting ≤ c.depth
  · have henter := ComesTo.of_outcome (outcome_enter_of_limit hc hlimit)
    refine .stops henter.bind_error fun _ => ?_
    rw [Nat.sub_eq_zero_of_le hlimit, hc.drop_eq]
    rfl
  · have hlt : c.depth < maxNesting := Nat.lt_of_not_le hlimit
    have hinner : Level.inner (maxNesting - c.depth) =
        some (.ofDepth (maxNesting - (c.depth + 1))) := by
      rw [← Nat.succ_sub_succ, Nat.succ_sub hlt]
      rfl
    have henter : ComesTo (fun _ => enter tokens) c (.ok ((), c.deeper)) :=
      .of_outcome (outcome_enter hlt)
    rw [hinner]
    cases hrun hlt with
    | @returns a c' ends inside position depth same =>
        have hleave : outcome (do leave; return a) c' =
            some (.ok (a, { c' with depth := c.depth })) := by
          rw [outcome_bind_ok (outcome_leave depth)]
          rfl
        exact .returns (henter.bind_ok (ends.bind_ok (.of_outcome hleave)))
          ⟨inside.position_lt, hlt.le⟩ position rfl same
    | stops ends same => exact .stops (henter.bind_ok ends.bind_error) same

end Follows

/-! ### Lists of items -/

section Items

variable {tokens : List Token} {tracked : Prop} {α : Type}

theorem follows_items (hclosed : Closed tokens) {c : Cursor} (h : c.Inside tokens)
    {separator closing : Mark} {read : List α} {item : α} {loop : Routine (List α)}
    {more : Parser (List α)}
    (hloop : c.ahead.Inside tokens →
      Follows tokens tracked 0 loop (do return read ++ [item] ++ (← more)) c.ahead) :
    Follows tokens tracked 1
      (fun fuel => do
        if ← consume tokens separator then loop fuel
        else
          expect tokens closing
          return read ++ [item])
      (do return read ++ (← Parser.itemsAfter separator closing item more)) c := by
  obtain ⟨t, hc⟩ := h.exists_at
  by_cases hk : t.kind = .mark separator
  · refine .of_ahead hc (outcome_consume_true hclosed hc hk) (fun rest => ?_)
      (hloop (hc.ahead_inside hclosed (by simp [hk])))
    simp only [Parser.itemsAfter, hk, if_true, bind, StateT.bind, Except.bind]
    cases more rest with
    | error e => rfl
    | ok r => simp only [List.append_assoc, List.singleton_append]
  · refine .of_stay (outcome_consume_false hc hk) ?_
    have hclose : Follows tokens tracked 1
        (fun _ => do expect tokens closing; return read ++ [item])
        (do Parser.expect closing; return read ++ [item]) c :=
      .bind (follows_expect hclosed h closing) fun _ c' hc' _ _ => follows_pure hc' _
    refine hclose.congr ?_
    simp only [Parser.itemsAfter, hc.drop_eq, if_neg hk, bind, StateT.bind, Except.bind,
      Parser.expect]
    by_cases hm : t.kind = .mark closing <;> simp only [hm, if_true, if_false]

end Items

/-! ### Expressions -/

section Expressions

variable {tokens : List Token} {tracked : Prop} {c : Cursor} {d : Nat}

/-- The routines of all strata follow the parsers of the level that the depth stands for. -/
def FollowsAll (tokens : List Token) (tracked : Prop) (c : Cursor) : Prop :=
  ∀ s, Follows tokens tracked 1 (expression tokens s)
    (Stratum.parser (Level.inner (maxNesting - c.depth)) s) c

/-- They do so from all cursors that are not before a given place. -/
def FollowsFrom (tokens : List Token) (tracked : Prop) (place : Nat) : Prop :=
  ∀ c : Cursor, c.Inside tokens → place ≤ c.position → FollowsAll tokens tracked c

theorem FollowsFrom.mono {place place' : Nat} (h : FollowsFrom tokens tracked place)
    (hle : place ≤ place') : FollowsFrom tokens tracked place' :=
  fun c hc hplace => h c hc (hle.trans hplace)

theorem FollowsFrom.stratum {place : Nat} (h : FollowsFrom tokens tracked place)
    (hc : c.Inside tokens) (hplace : place ≤ c.position) (hd : c.depth = d) (s : Stratum) :
    Follows tokens tracked 1 (expression tokens s)
      (s.parser (Level.inner (maxNesting - d))) c := by
  rw [← hd]
  exact h c hc hplace s

/-- A chain of operators follows its parser, if the operands further on do. -/
theorem follows_chain (hclosed : Closed tokens) (h : c.Inside tokens) (hd : c.depth = d)
    (hlater : FollowsFrom tokens tracked c.ahead.position) (s : Stratum) (left : Expr) :
    Follows tokens tracked 0 (chain tokens s left)
      (Parser.chainFrom s.operator? (s.next.parser (Level.inner (maxNesting - d)))
        (s.next.parser_consumes _) left) c := by
  induction c, h using Inside.forward generalizing left with
  | step c h ih =>
  obtain ⟨t, hc⟩ := h.exists_at
  refine .of_call (.of_stay (outcome_look hc) ?_)
  have hleft : (∀ m, t.kind = .mark m → s.operator? m = none) →
      Follows tokens tracked 0 (fun _ => pure left) (Parser.chainFrom s.operator?
        (s.next.parser (Level.inner (maxNesting - d))) (s.next.parser_consumes _) left) c := by
    intro hnone
    refine (follows_pure h left).congr ?_
    rw [Parser.chainFrom_eq_self (by rwa [hc.drop_eq])]
    rfl
  cases hk : t.kind with
  | mark m =>
      cases hop : s.operator? m with
      | some op =>
          simp only [hop]
          refine Follows.weaken (.of_bump hclosed hc (by simp [hk])
            (Parser.chainFrom_operator hk hop) fun hc' => ?_)
          refine .bind (hlater.stratum hc' (Nat.le_refl _) hd s.next).weaken
            fun right c'' hc'' hposition hdepth => ?_
          refine ih c'' hc'' hposition (hdepth.trans hd) (hlater.mono ?_) _
          simp only [ahead_position] at hposition ⊢
          omega
      | none =>
          simp only [hop]
          exact hleft fun m' hm' => by rw [hk] at hm'; cases hm'; exact hop
  | _ => exact hleft fun m hm => by rw [hk] at hm; cases hm

/-- The arguments of a call follow their parser, if the expressions from the cursor on do. -/
theorem follows_arguments (hclosed : Closed tokens) (h : c.Inside tokens) (hd : c.depth = d)
    (hall : FollowsFrom tokens tracked c.position) (read : List Expr) :
    Follows tokens tracked 1 (arguments tokens read)
      (do return read ++ (← Parser.arguments (Level.ofDepth (maxNesting - d)).expr
        (Level.ofDepth (maxNesting - d)).expr_consumes)) c := by
  induction c, h using Inside.forward generalizing read with
  | step c h ih =>
  have hexpr : Follows tokens tracked 1 (expression tokens .comparison)
      (Level.ofDepth (maxNesting - d)).expr c := by
    rw [Stratum.expr_ofDepth]
    exact hall.stratum h (Nat.le_refl _) hd .comparison
  rw [Parser.arguments_eq_itemsAfter, bind_assoc]
  refine .of_call (.bind hexpr fun e c' hc' hposition hdepth =>
    (follows_items hclosed hc' fun hahead => Follows.weaken ?_).weaken)
  refine ih c'.ahead hahead ?_ (hdepth.trans hd) (hall.mono ?_) _
  · rw [ahead_position]
    omega
  · rw [ahead_position]
    omega

theorem follows_call (hclosed : Closed tokens) (h : c.Inside tokens)
    (hall : FollowsFrom tokens tracked c.position) (f : String) :
    Follows tokens tracked 1
      (fun fuel => do
        expect tokens .openParen
        let args ← nested tokens (arguments tokens [] fuel)
        return .call f args)
      (Level.call (Level.inner (maxNesting - c.depth)) f) c := by
  refine .bind (follows_expect hclosed h _) fun _ c' hc' hposition hdepth => ?_
  rw [← hdepth]
  refine .bind (follows_nested hc' fun hlt => ?_) fun args c'' hc'' _ _ => follows_pure hc'' _
  have hargs := follows_arguments hclosed (c := c'.deeper) ⟨hc'.position_lt, hlt⟩ rfl
    (hall.mono (Nat.le_of_succ_le hposition)) []
  simpa using hargs.weaken

theorem follows_bracketed (hclosed : Closed tokens) (h : c.Inside tokens)
    (hall : FollowsFrom tokens tracked c.position) :
    Follows tokens tracked 1
      (fun fuel => do
        let e ← nested tokens (expression tokens .comparison fuel)
        expect tokens .closeParen
        return .brackets e)
      (Level.bracketed (Level.inner (maxNesting - c.depth))) c := by
  refine .bind (follows_nested h fun hlt => ?_) fun e c' hc' _ _ => ?_
  · rw [Stratum.expr_ofDepth]
    exact hall c.deeper ⟨h.position_lt, hlt⟩ (Nat.le_refl _) .comparison
  · exact .bind (follows_expect hclosed hc' _).weaken fun _ c'' hc'' _ _ => follows_pure hc'' _

theorem follows_signed (h : c.Inside tokens) (hall : FollowsFrom tokens tracked c.position)
    (op : UnaryOp) :
    Follows tokens tracked 1
      (fun fuel => do
        let e ← nested tokens (expression tokens .unary fuel)
        return .unary op e)
      (Level.signed (Level.inner (maxNesting - c.depth)) op) c := by
  refine .bind (follows_nested h fun hlt => ?_) fun e c' hc' _ _ => follows_pure hc' _
  rw [Stratum.unary_ofDepth]
  exact hall c.deeper ⟨h.position_lt, hlt⟩ (Nat.le_refl _) .unary

theorem follows_primary (hclosed : Closed tokens) (h : c.Inside tokens)
    (hlater : FollowsFrom tokens tracked c.ahead.position) :
    Follows tokens tracked 1 (expression tokens .primary)
      (Level.primary (Level.inner (maxNesting - c.depth))) c := by
  obtain ⟨t, hc⟩ := h.exists_at
  refine .of_call (.of_stay (outcome_look hc) ?_)
  cases hk : t.kind with
  | number v =>
      refine .of_bump hclosed hc (by simp [hk]) (fun rest => ?_) fun hc' =>
        follows_pure hc' (Expr.number v)
      simp only [Level.primary, hk]
      rfl
  | path p =>
      refine .of_bump hclosed hc (by simp [hk]) (fun rest => ?_) fun hc' =>
        follows_pure hc' (Expr.path p)
      simp only [Level.primary, hk]
      rfl
  | word f =>
      refine .of_bump hclosed hc (by simp [hk]) (fun rest => ?_) fun hc' =>
        (follows_call hclosed hc' hlater f).weaken
      simp only [Level.primary, hk, ahead_depth]
  | mark m =>
      by_cases hm : m = .openParen
      · subst hm
        refine .of_bump hclosed hc (by simp [hk]) (fun rest => ?_) fun hc' =>
          (follows_bracketed hclosed hc' hlater).weaken
        simp only [Level.primary, hk, ahead_depth]
      · cases m with
        | openParen => exact absurd rfl hm
        | _ => exact follows_stop hc fun rest => by simp only [Level.primary, hk]
  | finish => exact follows_stop hc fun rest => by simp only [Level.primary, hk]

theorem follows_signedOperand (hclosed : Closed tokens) (h : c.Inside tokens)
    (hlater : FollowsFrom tokens tracked c.ahead.position) :
    Follows tokens tracked 1 (expression tokens .unary)
      (Level.signedOperand (Level.inner (maxNesting - c.depth))) c := by
  obtain ⟨t, hc⟩ := h.exists_at
  apply Follows.of_call
  by_cases hminus : t.kind = .mark .minus
  · refine .of_ahead hc (outcome_consume_true hclosed hc hminus) (fun rest => ?_)
      (follows_signed (hc.ahead_inside hclosed (by simp [hminus])) hlater .minus).weaken
    simp only [Level.signedOperand, hminus, ahead_depth]
  refine .of_stay (outcome_consume_false hc hminus) ?_
  by_cases hplus : t.kind = .mark .plus
  · refine .of_ahead hc (outcome_consume_true hclosed hc hplus) (fun rest => ?_)
      (follows_signed (hc.ahead_inside hclosed (by simp [hplus])) hlater .plus).weaken
    simp only [Level.signedOperand, hplus, ahead_depth]
  refine .of_stay (outcome_consume_false hc hplus) ((follows_primary hclosed h hlater).congr ?_)
  rw [hc.drop_eq]
  simp only [Level.signedOperand]

/-- A stratum with operators follows its parser, if the next one does here and further on. -/
theorem follows_stratum (hclosed : Closed tokens) {s : Stratum}
    (hs : s.rank < Stratum.unary.rank) (hlater : FollowsFrom tokens tracked c.ahead.position)
    (hnext : Follows tokens tracked 1 (expression tokens s.next)
      (s.next.parser (Level.inner (maxNesting - c.depth))) c) :
    Follows tokens tracked 1 (expression tokens s)
      (s.parser (Level.inner (maxNesting - c.depth))) c := by
  have hrun : ∀ fuel, expression tokens s (fuel + 1) = (do
      let left ← expression tokens s.next fuel
      chain tokens s left fuel) := by
    intro fuel
    cases s with
    | comparison | sum | product => rfl
    | unary | primary => exact absurd hs (by decide)
  apply Follows.of_call
  simp only [hrun]
  rw [Stratum.parser_eq_chain _ hs]
  refine .bind hnext fun left c' hc' hposition hdepth =>
    follows_chain hclosed hc' hdepth (hlater.mono ?_) s left
  simp only [ahead_position]
  omega

/-- **The routines of all strata follow the parsers**, from every cursor inside the tokens. The
induction is on the tokens that are left, since everything that nests is further on; at one place,
the strata are gone through from the tightest to the loosest. -/
theorem followsAll (hclosed : Closed tokens) (h : c.Inside tokens) :
    FollowsAll tokens tracked c := by
  induction c, h using Inside.forward with
  | step c h ih =>
  have hlater : FollowsFrom tokens tracked c.ahead.position := ih
  have hunary := follows_signedOperand hclosed h hlater
  have hproduct := follows_stratum hclosed (s := .product) (by decide) hlater hunary
  have hsum := follows_stratum hclosed (s := .sum) (by decide) hlater hproduct
  intro s
  cases s with
  | comparison => exact follows_stratum hclosed (by decide) hlater hsum
  | sum => exact hsum
  | product => exact hproduct
  | unary => exact hunary
  | primary => exact follows_primary hclosed h hlater

end Expressions

/-! ### Sentences and segments -/

section Sentences

variable {tokens : List Token} {c : Cursor} {d : Nat}

/-- Expressions on the first level follow the parser of whole expressions. -/
theorem follows_expr (hclosed : Closed tokens) (h : c.Inside tokens) (hd : c.depth = d) :
    Follows tokens (d = 0) 1 (expression tokens .comparison) Expr.parser c := by
  have hexpr : Follows tokens (d = 0) 1 (expression tokens .comparison)
      (Level.ofDepth (maxNesting - d)).expr c := by
    rw [Stratum.expr_ofDepth, ← hd]
    exact followsAll hclosed h .comparison
  cases hexpr with
  | returns ends inside position depth same =>
      exact .returns ends inside position depth fun h0 => by subst h0; exact same rfl
  | stops ends same => exact .stops ends fun h0 => by subst h0; exact same rfl

theorem follows_sentence (hclosed : Closed tokens) (h : c.Inside tokens) (hd : c.depth = d) :
    Follows tokens (d = 0) 1 (sentence tokens) Sentence.parser c := by
  obtain ⟨t, hc⟩ := h.exists_at
  refine .of_stay (outcome_look hc) ?_
  cases hk : t.kind with
  | path p =>
      have hvalue : c.ahead.Inside tokens → Follows tokens (d = 0) 0
          (fun fuel => do
            expect tokens .assign
            let value ← expression tokens .comparison fuel
            return Sentence.mk p value)
          (do
            Parser.expect .assign
            let value ← Expr.parser
            return Sentence.mk p value) c.ahead := by
        intro hc'
        refine .bind (follows_expect hclosed hc' _).weaken fun _ c₁ hc₁ _ hd₁ => ?_
        refine .bind (follows_expr hclosed hc₁ (hd₁.trans hd)).weaken fun value c₂ hc₂ _ _ => ?_
        exact follows_pure hc₂ _
      refine .of_bump hclosed hc (by simp [hk]) (fun rest => ?_) hvalue
      simp only [Sentence.parser, Sentence.targetPath, hk, bind, StateT.bind, Except.bind]
  | _ =>
      refine follows_stop hc fun rest => ?_
      simp only [Sentence.parser, Sentence.targetPath, hk, bind, StateT.bind, Except.bind]

theorem follows_sentences (hclosed : Closed tokens) (h : c.Inside tokens) (hd : c.depth = d)
    (read : List Sentence) :
    Follows tokens (d = 0) 1 (sentences tokens read)
      (do return read ++ (← (Sentence.blockFrom : Parser (List Sentence)))) c := by
  induction c, h using Inside.forward generalizing read with
  | step c h ih =>
  obtain ⟨t, hc⟩ := h.exists_at
  apply Follows.of_call
  by_cases hclose : t.kind = .mark .closeBrace
  · refine .of_ahead hc (outcome_consume_true hclosed hc hclose) (fun rest => ?_)
      (follows_pure (hc.ahead_inside hclosed (by simp [hclose])) read)
    have hblock : Sentence.blockFrom (t :: rest) = .ok ([], rest) := by
      rw [Sentence.blockFrom, if_pos (by simpa [Parser.peek] using hclose), List.tail_cons]
    simp only [bind, StateT.bind, Except.bind, hblock, List.append_nil]
  · refine .of_stay (outcome_consume_false hc hclose) ?_
    have hitems : Follows tokens (d = 0) 1
        (fun fuel => do
          let s ← sentence tokens fuel
          if ← consume tokens .semicolon then sentences tokens (read ++ [s]) fuel
          else
            expect tokens .closeBrace
            return read ++ [s])
        (do
          let s ← Sentence.parser
          return read ++ (← Parser.itemsAfter .semicolon .closeBrace s Sentence.blockFrom)) c := by
      refine .bind (follows_sentence hclosed h hd) fun s c' hc' hposition hdepth =>
        (follows_items hclosed hc' fun hahead => Follows.weaken ?_).weaken
      refine ih c'.ahead hahead ?_ (hdepth.trans hd) _
      rw [ahead_position]
      omega
    have hpeek : Parser.peek (tokens.drop c.position) ≠ .mark .closeBrace := by
      rwa [hc.drop_eq]
    refine hitems.congr ?_
    simp only [bind, StateT.bind, Sentence.blockFrom_eq_itemsAfter hpeek, Except.bind]
    cases Sentence.parser (tokens.drop c.position) <;> rfl

theorem follows_block (hclosed : Closed tokens) (h : c.Inside tokens) (hd : c.depth = d) :
    Follows tokens (d = 0) 1 (block tokens) Sentence.block c := by
  refine .bind (follows_expect hclosed h _) fun _ c' hc' _ hd' => ?_
  simpa using (follows_sentences hclosed hc' (hd'.trans hd) []).weaken

theorem follows_segment (hclosed : Closed tokens) (h : c.Inside tokens) (hd : c.depth = d) :
    Follows tokens (d = 0) 1 (segment tokens) Segment.parser c := by
  obtain ⟨t, hc⟩ := h.exists_at
  by_cases hif : t.kind = .mark .ifWord
  · have hc₀ := hc.ahead_inside hclosed (by simp [hif])
    have hcondition : Follows tokens (d = 0) 0
        (fun fuel => do
          let test ← expression tokens .comparison fuel
          let thenBlock ← block tokens fuel
          expect tokens .elseWord
          let elseBlock ← block tokens fuel
          return .condition test thenBlock elseBlock)
        Segment.conditionParser c.ahead := by
      refine .bind (follows_expr hclosed hc₀ hd).weaken fun test c₁ hc₁ _ hd₁ => ?_
      have hd₁ := hd₁.trans hd
      refine .bind (follows_block hclosed hc₁ hd₁).weaken fun thenBlock c₂ hc₂ _ hd₂ => ?_
      refine .bind (follows_expect hclosed hc₂ _).weaken fun _ c₃ hc₃ _ hd₃ => ?_
      refine .bind (follows_block hclosed hc₃ (hd₃.trans (hd₂.trans hd₁))).weaken
        fun elseBlock c₄ hc₄ _ _ => ?_
      exact follows_pure hc₄ _
    refine .of_ahead hc (outcome_consume_true hclosed hc hif) (fun rest => ?_) hcondition
    rw [Segment.parser, if_pos (by simpa [Parser.peek] using hif), List.tail_cons]
  · have hsentence : Follows tokens (d = 0) 1
        (fun fuel => do
          let s ← sentence tokens fuel
          expect tokens .semicolon
          return .sentence s)
        Segment.sentenceParser c := by
      refine .bind (follows_sentence hclosed h hd) fun s c₁ hc₁ _ _ => ?_
      exact .bind (follows_expect hclosed hc₁ _).weaken fun _ c₂ hc₂ _ _ => follows_pure hc₂ _
    refine .of_stay (outcome_consume_false hc hif) (hsentence.congr ?_)
    rw [hc.drop_eq, Segment.parser, if_neg (by simpa [Parser.peek] using hif)]

end Sentences

/-! ### Whole scripts -/

section Scripts

variable {tokens : List Token} {c : Cursor} {d : Nat}

theorem comesTo_segments (hclosed : Closed tokens) (h : c.Inside tokens) (hd : c.depth = d)
    (read : List Segment) :
    (∃ ss, ComesTo (segments tokens read) c (.ok (read ++ ss, ⟨tokens.length - 1, d⟩)) ∧
      (d = 0 → Segment.parseAll (tokens.drop c.position) = .ok ss)) ∨
    ∃ stop, ComesTo (segments tokens read) c (.error (.stopped stop)) ∧
      (d = 0 → Segment.parseAll (tokens.drop c.position) = .error stop) := by
  induction c, h using Inside.forward generalizing read with
  | step c h ih =>
  obtain ⟨t, hc⟩ := h.exists_at
  have hround {r : Except Halt (List Segment × Cursor)}
      (hr : ComesTo (fun fuel => if t.kind = .finish then pure read else do
        let s ← segment tokens fuel
        segments tokens (read ++ [s]) fuel) c r) : ComesTo (segments tokens read) c r :=
    .of_call ((ComesTo.of_outcome (outcome_look hc)).bind_ok hr)
  by_cases hk : t.kind = .finish
  · -- Only the last token is the end of the script.
    have hlast := (hclosed _ t hc.token).1 hk
    simp only [if_pos hk] at hround
    refine .inl ⟨[], hround (.of_outcome ?_), fun _ => ?_⟩
    · have hposition : tokens.length - 1 = c.position := by omega
      have hcursor : c = ⟨tokens.length - 1, d⟩ := by rw [hposition, ← hd]
      rw [List.append_nil, ← hcursor]
      rfl
    · rw [hc.drop_eq, Segment.parseAll, if_pos (by simpa [Parser.peek] using hk)]
  · have hpeek : Parser.peek (tokens.drop c.position) ≠ .finish := by
      rwa [hc.drop_eq]
    simp only [if_neg hk] at hround
    cases follows_segment hclosed h hd with
    | @returns s c' ends inside position depth same =>
        rcases ih c' inside position (depth.trans hd) (read ++ [s]) with
          ⟨ss, hss, hparse⟩ | ⟨stop, hstop, hparse⟩
        · rw [List.append_assoc, List.singleton_append] at hss
          refine .inl ⟨s :: ss, hround (ends.bind_ok hss), fun hd0 => ?_⟩
          exact Segment.parseAll_cons hpeek (same hd0) (hparse hd0)
        · refine .inr ⟨stop, hround (ends.bind_ok hstop), fun hd0 => ?_⟩
          exact Segment.parseAll_eq_error hpeek (.inr ⟨s, _, same hd0, hparse hd0⟩)
    | @stops stop ends same =>
        refine .inr ⟨stop, hround ends.bind_error, fun hd0 => ?_⟩
        exact Segment.parseAll_eq_error hpeek (.inl (same hd0))

end Scripts

/-! ### All routines -/

section Results

variable {α : Type} {tokens : List Token}

/-- A routine **advances** when it comes to an end from every cursor inside the tokens: it returns
with the cursor further on, still inside the tokens and as deep as before, or it stops at a fault of
the script. -/
def Advances (tokens : List Token) (run : Routine α) : Prop :=
  ∀ c : Cursor, c.Inside tokens →
    (∃ a c', ComesTo run c (.ok (a, c')) ∧ c.position < c'.position ∧ c'.Inside tokens ∧
      c'.depth = c.depth) ∨
    ∃ stop, ComesTo run c (.error (.stopped stop))

/-- What a reading comes to at some depth, by the outcome of a parser: the cursor is before the
tokens that are left. -/
def answer (tokens : List Token) (depth : Nat) :
    Except Stop (α × List Token) → Except Halt (α × Cursor)
  | .ok (a, rest) => .ok (a, ⟨tokens.length - rest.length, depth⟩)
  | .error stop => .error (.stopped stop)

/-- At some depth, a routine **tracks** a parser when it comes to what the parser has for the tokens
from the cursor on. -/
def Tracks (tokens : List Token) (depth : Nat) (run : Routine α) (p : Parser α) : Prop :=
  ∀ position < tokens.length,
    ComesTo run ⟨position, depth⟩ (answer tokens depth (p (tokens.drop position)))

theorem advances_of_follows {tracked : Cursor → Prop} {run : Routine α} {p : Cursor → Parser α}
    (h : ∀ c : Cursor, c.Inside tokens → Follows tokens (tracked c) 1 run (p c) c) :
    Advances tokens run := by
  intro c hc
  cases h c hc with
  | returns ends inside position depth same => exact .inl ⟨_, _, ends, position, inside, depth⟩
  | stops ends same => exact .inr ⟨_, ends⟩

theorem Follows.comesTo {tracked : Prop} {n : Nat} {run : Routine α} {p : Parser α} {c : Cursor}
    (h : Follows tokens tracked n run p c) (htracked : tracked) :
    ComesTo run c (answer tokens c.depth (p (tokens.drop c.position))) := by
  cases h with
  | @returns a c' ends inside position depth same =>
      have hposition : tokens.length - (tokens.drop c'.position).length = c'.position := by
        have := inside.position_lt
        rw [List.length_drop]
        omega
      rw [same htracked, answer, hposition, ← depth]
      exact ends
  | stops ends same =>
      rw [same htracked, answer]
      exact ends

end Results

/-- **Every routine comes to an end, further on.** Of the tokens of a script, the last one and no
other is its end. The routines of expressions, arguments, sentences, blocks and segments advance,
and so do the loops of arguments and blocks in every round; the loop of whole scripts comes to an
end too, at the last token or in a stop. The routines track the parsers: those of expressions at
every depth, the others where nothing is nested; and a whole script comes to its program. -/
theorem routines_advance {src : String} {tokens : List Token} (hlex : Token.lex src = .ok tokens) :
    Closed tokens ∧
    (∀ s, Advances tokens (expression tokens s)) ∧
    (∀ read, Advances tokens (arguments tokens read)) ∧
    Advances tokens (sentence tokens) ∧
    (∀ read, Advances tokens (sentences tokens read)) ∧
    Advances tokens (block tokens) ∧
    Advances tokens (segment tokens) ∧
    (∀ read (c : Cursor), c.Inside tokens →
      (∃ ss, ComesTo (segments tokens read) c (.ok (ss, ⟨tokens.length - 1, c.depth⟩))) ∨
      ∃ stop, ComesTo (segments tokens read) c (.error (.stopped stop))) ∧
    (∀ d ≤ maxNesting,
      (∀ s, Tracks tokens d (expression tokens s)
        (Stratum.parser (Level.inner (maxNesting - d)) s)) ∧
      Tracks tokens d (arguments tokens []) (Parser.arguments
        (Level.ofDepth (maxNesting - d)).expr (Level.ofDepth (maxNesting - d)).expr_consumes)) ∧
    Tracks tokens 0 (sentence tokens) Sentence.parser ∧
    Tracks tokens 0 (block tokens) Sentence.block ∧
    Tracks tokens 0 (segment tokens) Segment.parser ∧
    ComesTo (segments tokens []) ⟨0, 0⟩ (match Program.parse src with
      | .ok p => .ok (p.segments, ⟨tokens.length - 1, 0⟩)
      | .error e => .error (.stopped ⟨e.offset, e.fault⟩)) := by
  have hclosed := closed_of_lex hlex
  have hexpression : ∀ c : Cursor, c.Inside tokens → FollowsAll tokens True c :=
    fun c h => followsAll hclosed h
  have harguments : ∀ (read : List Expr) (c : Cursor), c.Inside tokens →
      Follows tokens True 1 (arguments tokens read) (do return read ++ (← Parser.arguments
        (Level.ofDepth (maxNesting - c.depth)).expr
        (Level.ofDepth (maxNesting - c.depth)).expr_consumes)) c :=
    fun read c h => follows_arguments hclosed h rfl (fun c' h' _ => hexpression c' h') read
  have htop : ∀ position < tokens.length, (⟨position, 0⟩ : Cursor).Inside tokens :=
    fun _ hlt => ⟨hlt, Nat.zero_le _⟩
  refine ⟨hclosed, fun s => advances_of_follows fun c h => hexpression c h s,
    fun read => advances_of_follows (harguments read),
    advances_of_follows fun c h => follows_sentence hclosed h rfl,
    fun read => advances_of_follows fun c h => follows_sentences hclosed h rfl read,
    advances_of_follows fun c h => follows_block hclosed h rfl,
    advances_of_follows fun c h => follows_segment hclosed h rfl,
    fun read c h => ?_, fun d hd => ⟨?_, ?_⟩,
    fun position hlt => (follows_sentence hclosed (htop position hlt) rfl).comesTo rfl,
    fun position hlt => (follows_block hclosed (htop position hlt) rfl).comesTo rfl,
    fun position hlt => (follows_segment hclosed (htop position hlt) rfl).comesTo rfl, ?_⟩
  · rcases comesTo_segments hclosed h rfl read with ⟨ss, hss, -⟩ | ⟨stop, hstop, -⟩
    · exact .inl ⟨_, hss⟩
    · exact .inr ⟨stop, hstop⟩
  · exact fun s position hlt => (hexpression ⟨position, d⟩ ⟨hlt, hd⟩ s).comesTo trivial
  · intro position hlt
    simpa using (harguments [] ⟨position, d⟩ ⟨hlt, hd⟩).comesTo trivial
  · have hlength : 0 < tokens.length := by
      obtain ⟨w, hw, -⟩ := Token.kinds_of_lex hlex
      rw [← List.length_map Token.kind, hw]
      simp
    rcases comesTo_segments hclosed (htop 0 hlength) rfl [] with
      ⟨ss, hss, hparse⟩ | ⟨stop, hstop, hparse⟩
    · simp only [Program.parse, hlex, show Segment.parseAll tokens = .ok ss from hparse rfl]
      exact hss
    · have hparse : Segment.parseAll tokens = .error stop := hparse rfl
      simp only [Program.parse, hlex, hparse, Segment.offset_eq_of_parseAll hlex hparse]
      exact hstop

/-- A bracket is not closed, and the script is refused at the semicolon. From the sign, at place 4,
an operand is read up to the comma at depth 127, and none is read at depth 128. -/
theorem routines_advance_unclosed :
    ∃ tokens, Token.lex "a.c = max(-a.b, (a.d;" = .ok tokens ∧ tokens.length = 11 ∧
      Advances tokens (segment tokens) ∧
      ComesTo (segments tokens []) ⟨0, 0⟩
        (.error (.stopped ⟨20, .expected (.mark .closeParen) (.mark .semicolon)⟩)) ∧
      ComesTo (expression tokens .unary) ⟨4, 127⟩
        (.ok (.unary .minus (.path "a.b"), ⟨6, 127⟩)) ∧
      ComesTo (expression tokens .unary) ⟨4, 128⟩ (.error (.stopped ⟨11, .nestedTooDeep⟩)) := by
  have hlex : Token.lex "a.c = max(-a.b, (a.d;" = .ok [⟨.path "a.c", 0, 3⟩, ⟨.mark .assign, 4, 5⟩,
      ⟨.word "max", 6, 9⟩, ⟨.mark .openParen, 9, 10⟩, ⟨.mark .minus, 10, 11⟩, ⟨.path "a.b", 11, 14⟩,
      ⟨.mark .comma, 14, 15⟩, ⟨.mark .openParen, 16, 17⟩, ⟨.path "a.d", 17, 20⟩,
      ⟨.mark .semicolon, 20, 21⟩, ⟨.finish, 21, 21⟩] := by
    decide +kernel
  have hrefused : Program.parse "a.c = max(-a.b, (a.d;" =
      .error ⟨20, .expected (.mark .closeParen) (.mark .semicolon), ";"⟩ := by
    decide +kernel
  obtain ⟨-, -, -, -, -, -, hsegment, -, hnested, -, -, -, hscript⟩ := routines_advance hlex
  rw [hrefused] at hscript
  exact ⟨_, hlex, rfl, hsegment, hscript, (hnested 127 (by decide)).1 .unary 4 (by decide),
    (hnested 128 (by decide)).1 .unary 4 (by decide)⟩

end Cursor

end RigScript
