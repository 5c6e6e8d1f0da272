import RigScript.Expr
import RigScript.Token

/-!
# The grammar of scripts

Which token kinds spell which script, said without reference to how they are read:

* a program is a list of segments;
* a segment is `if` comparison block `else` block, or a sentence and a semicolon;
* a sentence is a path, `=` and a comparison;
* a block is, between braces, a list of sentences with a semicolon after each, where the last
  semicolon may be left out;
* a comparison, sum or product is an operand of the next stratum, or one of its own kind, an
  operator and an operand of the next stratum, so chains group from the left;
* a signed operand is a primary one, or a sign and a signed operand;
* a primary operand is a number, a path, a call with at least one argument, or a comparison in
  brackets.

## Main definitions

* `RigScript.Stratum`: the strata of the expression grammar
* `RigScript.Expr.Derives`: the token kinds that spell an expression of a stratum
* `RigScript.Expr.nest`: how deep signs, calls and brackets nest
* `RigScript.Program.Derives`: the token kinds that spell a program

## Main results

* `RigScript.Program.finish_notMem_of_derives`: the end of a script spells no part of a program
-/

namespace RigScript

/-! ### Strata -/

/-- The strata of the expression grammar, from the loosest to the tightest. -/
inductive Stratum where
  | comparison
  | sum
  | product
  | unary
  | primary
deriving DecidableEq, Repr

namespace Stratum

/-- The stratum of the operands; the tightest one is followed by itself. -/
def next : Stratum → Stratum
  | comparison => sum
  | sum => product
  | product => unary
  | unary => primary
  | primary => primary

/-- How tightly a stratum binds. -/
def rank : Stratum → Nat
  | comparison => 0
  | sum => 1
  | product => 2
  | unary => 3
  | primary => 4

end Stratum

namespace BinaryOp

/-- The stratum whose operands an operator joins. -/
def stratum : BinaryOp → Stratum
  | add | subtract => .sum
  | multiply | divide | modulo => .product
  | equal | unequal => .comparison

/-- The mark that stands for an operator. -/
def mark : BinaryOp → Mark
  | add => .plus
  | subtract => .minus
  | multiply => .star
  | divide => .slash
  | modulo => .percent
  | equal => .equal
  | unequal => .unequal

theorem mark_injective {op op' : BinaryOp} (h : op.mark = op'.mark) : op = op' := by
  cases op <;> cases op' <;> first | rfl | cases h

theorem rank_stratum_lt_next (op : BinaryOp) : op.stratum.rank < op.stratum.next.rank := by
  cases op <;> decide

theorem rank_stratum_lt_unary (op : BinaryOp) : op.stratum.rank < Stratum.unary.rank := by
  cases op <;> decide

end BinaryOp

/-- The mark that stands for a sign. -/
def UnaryOp.mark : UnaryOp → Mark
  | plus => .plus
  | minus => .minus

/-! ### Expressions -/

/-- The arguments of a call, given the spelling of each: separated by commas and followed by the
closing bracket. -/
def Token.Kind.argumentList (words : List (List Token.Kind)) : List Token.Kind :=
  [.mark .comma].intercalate words ++ [.mark .closeParen]

/-- The token kinds that spell an expression of a stratum. -/
inductive Expr.Derives : Stratum → Expr → List Token.Kind → Prop
  | number (v : Float) : Derives .primary (.number v) [.number v]
  | path (p : String) : Derives .primary (.path p) [.path p]
  /-- A call has at least one argument. -/
  | call (f : String) (args : List (Expr × List Token.Kind)) (nonempty : args ≠ [])
      (each : ∀ a ∈ args, Derives .comparison a.1 a.2) :
      Derives .primary (.call f (args.map Prod.fst))
        (.word f :: .mark .openParen :: Token.Kind.argumentList (args.map Prod.snd))
  | brackets {e : Expr} {w : List Token.Kind} (inner : Derives .comparison e w) :
      Derives .primary (.brackets e) (.mark .openParen :: (w ++ [.mark .closeParen]))
  | unary (op : UnaryOp) {e : Expr} {w : List Token.Kind} (operand : Derives .unary e w) :
      Derives .unary (.unary op e) (.mark op.mark :: w)
  /-- The left side of an operator may be a chain of its own stratum, the right side may not. -/
  | binary (op : BinaryOp) {l r : Expr} {u v : List Token.Kind} (left : Derives op.stratum l u)
      (right : Derives op.stratum.next r v) :
      Derives op.stratum (.binary op l r) (u ++ .mark op.mark :: v)
  /-- An operand alone is a chain without operators. -/
  | operand (s : Stratum) {e : Expr} {w : List Token.Kind} (tighter : Derives s.next e w) :
      Derives s e w

namespace Expr

mutual

/-- How deep signs, calls and brackets nest in an expression. -/
def nest : Expr → Nat
  | .number _ => 0
  | .path _ => 0
  | .unary _ e => e.nest + 1
  | .binary _ l r => max l.nest r.nest
  | .call _ args => nestAll args + 1
  | .brackets e => e.nest + 1

/-- How deep they nest in any expression of a list. -/
def nestAll : List Expr → Nat
  | [] => 0
  | e :: es => max e.nest (nestAll es)

end

theorem nestAll_le_iff {es : List Expr} {d : Nat} : nestAll es ≤ d ↔ ∀ e ∈ es, e.nest ≤ d := by
  induction es with
  | nil => simp [nestAll]
  | cons e es ih => simp only [nestAll, Nat.max_le, List.forall_mem_cons, ih]

/-- A primary operand starts with no sign. -/
theorem Derives.exists_cons_of_primary {s : Stratum} {e : Expr} {w : List Token.Kind}
    (h : Derives s e w) (hs : s = .primary) :
    ∃ k v, w = k :: v ∧ ∀ op : UnaryOp, k ≠ .mark op.mark := by
  induction h with
  | number x => exact ⟨_, _, rfl, fun _ h => nomatch h⟩
  | path p => exact ⟨_, _, rfl, fun _ h => nomatch h⟩
  | call f => exact ⟨_, _, rfl, fun _ h => nomatch h⟩
  | brackets => exact ⟨_, _, rfl, fun op h => by cases op <;> cases h⟩
  | unary => cases hs
  | binary op => cases op <;> cases hs
  | operand s _ ih =>
    subst hs
    exact ih rfl

/-- The end of a script spells no part of an expression. -/
theorem finish_notMem_of_derives {s : Stratum} {e : Expr} {w : List Token.Kind}
    (h : Derives s e w) : .finish ∉ w := by
  induction h with
  | number => simp
  | path => simp
  | call f args _ _ ih =>
    have separated : ∀ ws : List (List Token.Kind), (∀ w ∈ ws, .finish ∉ w) →
        .finish ∉ [.mark .comma].intercalate ws := by
      intro ws hws
      induction ws with
      | nil => simp
      | cons w ws ih =>
        cases ws with
        | nil => simpa using hws
        | cons w' ws =>
          rw [List.intercalate_cons_cons]
          have := ih fun v hv => hws v (List.mem_cons_of_mem w hv)
          simp [hws w List.mem_cons_self, this]
    have := separated (args.map Prod.snd) (by simpa using fun w e hm => ih (e, w) hm)
    simp [Token.Kind.argumentList, this]
  | brackets _ ih => simp [ih]
  | unary _ _ ih => simp [ih]
  | binary _ _ _ ihl ihr => simp [ihl, ihr]
  | operand _ _ ih => exact ih

end Expr

/-! ### Sentences and segments -/

/-- The token kinds that spell an assignment. -/
def Sentence.Derives (s : Sentence) (w : List Token.Kind) : Prop :=
  ∃ v, Expr.Derives .comparison s.value v ∧ w = .path s.target :: .mark .assign :: v

/-- The token kinds between the braces of a block. -/
inductive Sentence.DerivesAll : List Sentence → List Token.Kind → Prop
  | nil : DerivesAll [] []
  | last {s : Sentence} {u : List Token.Kind} (head : s.Derives u) : DerivesAll [s] u
  | cons {s : Sentence} {ss : List Sentence} {u v : List Token.Kind} (head : s.Derives u)
      (tail : DerivesAll ss v) : DerivesAll (s :: ss) (u ++ .mark .semicolon :: v)

/-- The token kinds that spell a block. -/
def Sentence.DerivesBlock (ss : List Sentence) (w : List Token.Kind) : Prop :=
  ∃ v, Sentence.DerivesAll ss v ∧ w = .mark .openBrace :: (v ++ [.mark .closeBrace])

/-- The token kinds that spell a segment. -/
inductive Segment.Derives : Segment → List Token.Kind → Prop
  | sentence {s : Sentence} {w : List Token.Kind} (h : s.Derives w) :
      Derives (.sentence s) (w ++ [.mark .semicolon])
  | condition {test : Expr} {thenBlock elseBlock : List Sentence} {u v w : List Token.Kind}
      (ht : Expr.Derives .comparison test u) (hv : Sentence.DerivesBlock thenBlock v)
      (hw : Sentence.DerivesBlock elseBlock w) :
      Derives (.condition test thenBlock elseBlock)
        (.mark .ifWord :: (u ++ (v ++ .mark .elseWord :: w)))

/-- The token kinds that spell segments one after another. -/
inductive Segment.DerivesAll : List Segment → List Token.Kind → Prop
  | nil : DerivesAll [] []
  | cons {s : Segment} {ss : List Segment} {u v : List Token.Kind} (head : s.Derives u)
      (tail : DerivesAll ss v) : DerivesAll (s :: ss) (u ++ v)

/-- The token kinds that spell a program. -/
def Program.Derives (p : Program) (w : List Token.Kind) : Prop :=
  Segment.DerivesAll p.segments w

/-- The expressions of a segment. -/
def Segment.exprs : Segment → List Expr
  | .sentence s => [s.value]
  | .condition test thenBlock elseBlock =>
    test :: (thenBlock.map Sentence.value ++ elseBlock.map Sentence.value)

/-- The expressions of a program. -/
def Program.exprs (p : Program) : List Expr :=
  p.segments.flatMap Segment.exprs

/-! ### The end of a script -/

theorem Sentence.finish_notMem_of_derives {s : Sentence} {w : List Token.Kind}
    (h : s.Derives w) : .finish ∉ w := by
  obtain ⟨v, hv, rfl⟩ := h
  simp [Expr.finish_notMem_of_derives hv]

theorem Sentence.finish_notMem_of_derivesBlock {ss : List Sentence} {w : List Token.Kind}
    (h : Sentence.DerivesBlock ss w) : .finish ∉ w := by
  obtain ⟨v, hv, rfl⟩ := h
  have : .finish ∉ v := by
    induction hv with
    | nil => simp
    | last hs => exact Sentence.finish_notMem_of_derives hs
    | cons hs _ ih => simp [Sentence.finish_notMem_of_derives hs, ih]
  simp [this]

theorem Segment.finish_notMem_of_derives {s : Segment} {w : List Token.Kind}
    (h : s.Derives w) : .finish ∉ w := by
  cases h with
  | sentence hs => simp [Sentence.finish_notMem_of_derives hs]
  | condition ht hv hw =>
    simp [Expr.finish_notMem_of_derives ht, Sentence.finish_notMem_of_derivesBlock hv,
      Sentence.finish_notMem_of_derivesBlock hw]

/-- The end of a script spells no part of a program. -/
theorem Program.finish_notMem_of_derives {p : Program} {w : List Token.Kind}
    (h : p.Derives w) : .finish ∉ w := by
  have all : ∀ ss v, Segment.DerivesAll ss v → .finish ∉ v := by
    intro ss v hv
    induction hv with
    | nil => simp
    | cons hs _ ih => simp [Segment.finish_notMem_of_derives hs, ih]
  exact all p.segments w h

end RigScript
