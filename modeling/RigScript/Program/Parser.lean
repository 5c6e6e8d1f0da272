import RigScript.Expr
import RigScript.Token.Lexer

/-!
# Reading a script

The grammar is read from left to right with one token of lookahead:

* a program is a list of segments;
* a segment is `if` test block `else` block, or a sentence and a semicolon;
* a sentence is a path, `=` and an expression;
* a block is a list of sentences between braces, separated by semicolons;
* an expression chains comparisons of sums of products of signed operands, each from the left;
* an operand is a number, a path, a call with at least one argument, or an expression in brackets.

Signs, calls and brackets nest. Each of them enters a deeper level of the expression grammar, and
there are `maxNesting` levels below the first, so the levels are a plain recursion on their number
and everything else is a loop over the tokens.

## Main definitions

* `RigScript.Parser`: a function from tokens to a result and the tokens after it
* `RigScript.Parser.Consumes`: a parser that uses up at least one token when it succeeds
* `RigScript.Level`: the expression grammar at one depth of nesting
* `RigScript.Program.parse`: the program of a script
* `RigScript.Expr.parse`: the expression of a text
-/

namespace RigScript

/-- Reads a result off the front of a list of tokens, or stops at a byte of the script. -/
abbrev Parser (α : Type) : Type :=
  StateT (List Token) (Except Stop) α

namespace Parser

variable {α β : Type}

/-- The kind of the first token; the end of a script goes on for ever. -/
def peek : List Token → Token.Kind
  | [] => .finish
  | t :: _ => t.kind

/-- The offset of the first token. -/
def position : List Token → Nat
  | [] => 0
  | t :: _ => t.start

/-- Stops at the first token. -/
def stopAt (fault : List Token → SyntaxFault) : Parser α :=
  fun ts => .error ⟨position ts, fault ts⟩

/-- Steps over a mark, which has to stand first. -/
def expect (m : Mark) : Parser Unit := fun ts =>
  match ts with
  | t :: rest =>
    if t.kind = .mark m then .ok ((), rest)
    else .error ⟨t.start, .expected (.mark m) t.kind⟩
  | [] => .error ⟨0, .expected (.mark m) .finish⟩

/-- Requires the end of the script. -/
def expectFinish : Parser Unit := fun ts =>
  if peek ts = .finish then .ok ((), ts) else .error ⟨position ts, .expected .finish (peek ts)⟩

/-! ### Progress -/

/-- A parser that uses up at least one token when it succeeds. -/
def Consumes (p : Parser α) : Prop :=
  ∀ ⦃ts : List Token⦄ ⦃a : α⦄ ⦃rest : List Token⦄,
    p ts = .ok (a, rest) → rest.length < ts.length

/-- A parser that never leaves more tokens than it was given. -/
def Keeps (p : Parser α) : Prop :=
  ∀ ⦃ts : List Token⦄ ⦃a : α⦄ ⦃rest : List Token⦄,
    p ts = .ok (a, rest) → rest.length ≤ ts.length

theorem Consumes.keeps {p : Parser α} (h : p.Consumes) : p.Keeps :=
  fun _ _ _ e => Nat.le_of_lt (h e)

/-- The outcome of one parser after another. -/
theorem bind_eq_ok {p : Parser α} {f : α → Parser β} {ts rest : List Token} {b : β}
    (h : (p >>= f) ts = .ok (b, rest)) :
    ∃ a mid, p ts = .ok (a, mid) ∧ f a mid = .ok (b, rest) := by
  simp only [bind, StateT.bind, Except.bind] at h
  split at h
  · cases h
  · next v hv => exact ⟨v.1, v.2, hv, h⟩

theorem pure_keeps (a : α) : Keeps (pure a : Parser α) := by
  intro ts b rest h
  cases h
  exact Nat.le_refl _

theorem stopAt_consumes (fault : List Token → SyntaxFault) :
    Consumes (stopAt fault : Parser α) := by
  intro ts a rest h
  cases h

theorem expect_consumes (m : Mark) : Consumes (expect m) := by
  intro ts a rest h
  unfold expect at h
  split at h
  · split at h
    · cases h; simp
    · cases h
  · cases h

theorem Consumes.bind {p : Parser α} {f : α → Parser β} (hp : p.Consumes)
    (hf : ∀ a, (f a).Keeps) : (p >>= f).Consumes := by
  intro ts b rest h
  obtain ⟨a, mid, h₁, h₂⟩ := bind_eq_ok h
  exact Nat.lt_of_le_of_lt (hf a h₂) (hp h₁)

theorem Keeps.bind {p : Parser α} {f : α → Parser β} (hp : p.Keeps)
    (hf : ∀ a, (f a).Keeps) : (p >>= f).Keeps := by
  intro ts b rest h
  obtain ⟨a, mid, h₁, h₂⟩ := bind_eq_ok h
  exact Nat.le_trans (hf a h₂) (hp h₁)

/-! ### Chains of operators -/

/-- Extends an operand by every operator of one class that follows, from the left. -/
def chainFrom (operator? : Mark → Option BinaryOp) (operand : Parser Expr)
    (progress : operand.Consumes) (left : Expr) (ts : List Token) :
    Except Stop (Expr × List Token) :=
  match ts with
  | [] => .ok (left, [])
  | t :: rest =>
    match t.kind with
    | .mark m =>
      match operator? m with
      | some op =>
        match _h : operand rest with
        | .ok (right, rest') =>
          chainFrom operator? operand progress (.binary op left right) rest'
        | .error e => .error e
      | none => .ok (left, t :: rest)
    | _ => .ok (left, t :: rest)
termination_by ts.length
decreasing_by
  have := progress _h
  simp only [List.length_cons]
  omega

theorem chainFrom_keeps (operator? : Mark → Option BinaryOp) (operand : Parser Expr)
    (progress : operand.Consumes) (left : Expr) :
    Keeps (chainFrom operator? operand progress left) := by
  intro ts e rest h
  fun_induction chainFrom operator? operand progress left ts with
  | case1 => cases h; exact Nat.le_refl _
  | case2 left t rest' m _ op _ right mid hmid ih =>
    have := ih h
    have := progress hmid
    simp only [List.length_cons]
    omega
  | case3 => cases h
  | case4 => cases h; exact Nat.le_refl _
  | case5 => cases h; exact Nat.le_refl _

/-- Operands joined by the operators of one class, from the left. -/
def chain (operator? : Mark → Option BinaryOp) (operand : Parser Expr)
    (progress : operand.Consumes) : Parser Expr := do
  let left ← operand
  chainFrom operator? operand progress left

theorem chain_consumes (operator? : Mark → Option BinaryOp) (operand : Parser Expr)
    (progress : operand.Consumes) : (chain operator? operand progress).Consumes :=
  progress.bind fun left => chainFrom_keeps operator? operand progress left

/-- The operators of products. -/
def productOp? : Mark → Option BinaryOp
  | .star => some .multiply
  | .slash => some .divide
  | .percent => some .modulo
  | _ => none

/-- The operators of sums. -/
def sumOp? : Mark → Option BinaryOp
  | .plus => some .add
  | .minus => some .subtract
  | _ => none

/-- The operators of comparisons. -/
def comparisonOp? : Mark → Option BinaryOp
  | .equal => some .equal
  | .unequal => some .unequal
  | _ => none

/-! ### Arguments -/

/-- The arguments of a call up to its closing bracket. -/
def argumentsFrom (expr : Parser Expr) (progress : expr.Consumes) (ts : List Token) :
    Except Stop (List Expr × List Token) :=
  match _h : expr ts with
  | .error e => .error e
  | .ok (_, []) => .error ⟨0, .expected (.mark .closeParen) .finish⟩
  | .ok (e, t :: rest) =>
    if t.kind = .mark .comma then
      match argumentsFrom expr progress rest with
      | .error stop => .error stop
      | .ok (es, last) => .ok (e :: es, last)
    else if t.kind = .mark .closeParen then .ok ([e], rest)
    else .error ⟨t.start, .expected (.mark .closeParen) t.kind⟩
termination_by ts.length
decreasing_by
  have := progress _h
  simp only [List.length_cons] at this
  omega

/-- The arguments of a call, its closing bracket included. -/
def arguments (expr : Parser Expr) (progress : expr.Consumes) : Parser (List Expr) :=
  argumentsFrom expr progress

theorem arguments_consumes (expr : Parser Expr) (progress : expr.Consumes) :
    (arguments expr progress).Consumes := by
  intro ts es last h
  unfold arguments at h
  fun_induction argumentsFrom expr progress ts generalizing es last with
  | case1 => cases h
  | case2 => cases h
  | case3 => cases h
  | case4 ts e t rest hmid _ es' last' hes ih =>
    cases h
    have := ih hes
    have := progress hmid
    simp only [List.length_cons] at this
    omega
  | case5 ts e t rest hmid =>
    cases h
    have := progress hmid
    simp only [List.length_cons] at this
    omega
  | case6 => cases h

end Parser

/-! ### Levels of nesting -/

open RigScript.Parser

/-- The expression grammar at one depth of nesting. -/
structure Level where
  /-- Signed operands. -/
  unary : Parser Expr
  /-- Whole expressions. -/
  expr : Parser Expr
  /-- A signed operand has a token. -/
  unary_consumes : unary.Consumes
  /-- An expression has a token. -/
  expr_consumes : expr.Consumes

namespace Level

/-- Reads with the next level, unless the nesting ends here. -/
def descend {α : Type} (inner : Option Level) (p : Level → Parser α) : Parser α :=
  match inner with
  | some l => p l
  | none => stopAt fun _ => .nestedTooDeep

theorem descend_consumes {α : Type} (inner : Option Level) {p : Level → Parser α}
    (h : ∀ l, (p l).Consumes) : (descend inner p).Consumes := by
  cases inner with
  | some l => exact h l
  | none => exact stopAt_consumes _

/-- The rest of a call after the name of its function. -/
def call (inner : Option Level) (function : String) : Parser Expr := do
  expect .openParen
  let args ← descend inner fun l => arguments l.expr l.expr_consumes
  return .call function args

/-- The rest of an expression in brackets after the opening one. -/
def bracketed (inner : Option Level) : Parser Expr := do
  let e ← descend inner Level.expr
  expect .closeParen
  return .brackets e

/-- The operand after a sign. -/
def signed (inner : Option Level) (op : UnaryOp) : Parser Expr := do
  let e ← descend inner Level.unary
  return .unary op e

/-- An operand without a sign. -/
def primary (inner : Option Level) : Parser Expr := fun ts =>
  match ts with
  | [] => .error ⟨0, .unexpectedToken .finish⟩
  | t :: rest =>
    match t.kind with
    | .number v => .ok (.number v, rest)
    | .path p => .ok (.path p, rest)
    | .word f => call inner f rest
    | .mark .openParen => bracketed inner rest
    | other => .error ⟨t.start, .unexpectedToken other⟩

/-- An operand with any number of signs. -/
def signedOperand (inner : Option Level) : Parser Expr := fun ts =>
  match ts with
  | [] => primary inner []
  | t :: rest =>
    match t.kind with
    | .mark .minus => signed inner .minus rest
    | .mark .plus => signed inner .plus rest
    | _ => primary inner (t :: rest)

theorem call_consumes (inner : Option Level) (f : String) : (call inner f).Consumes :=
  (expect_consumes _).bind fun _ =>
    ((descend_consumes inner fun l => arguments_consumes l.expr l.expr_consumes).bind
      fun _ => pure_keeps _).keeps

theorem bracketed_consumes (inner : Option Level) : (bracketed inner).Consumes :=
  (descend_consumes inner Level.expr_consumes).bind fun _ =>
    ((expect_consumes _).bind fun _ => pure_keeps _).keeps

theorem signed_consumes (inner : Option Level) (op : UnaryOp) : (signed inner op).Consumes :=
  (descend_consumes inner Level.unary_consumes).bind fun _ => pure_keeps _

theorem primary_consumes (inner : Option Level) : (primary inner).Consumes := by
  intro ts e rest h
  unfold primary at h
  split at h
  · cases h
  · next t ts' =>
    split at h
    · cases h; simp
    · cases h; simp
    · exact Nat.lt_succ_of_lt (call_consumes inner _ h)
    · exact Nat.lt_succ_of_lt (bracketed_consumes inner h)
    · cases h

theorem signedOperand_consumes (inner : Option Level) : (signedOperand inner).Consumes := by
  intro ts e rest h
  unfold signedOperand at h
  split at h
  · exact primary_consumes inner h
  · split at h
    · exact Nat.lt_succ_of_lt (signed_consumes inner _ h)
    · exact Nat.lt_succ_of_lt (signed_consumes inner _ h)
    · exact primary_consumes inner h

/-- Products of signed operands. -/
def product (inner : Option Level) : Parser Expr :=
  chain productOp? (signedOperand inner) (signedOperand_consumes inner)

theorem product_consumes (inner : Option Level) : (product inner).Consumes :=
  chain_consumes _ _ _

/-- Sums of products. -/
def sum (inner : Option Level) : Parser Expr :=
  chain sumOp? (product inner) (product_consumes inner)

theorem sum_consumes (inner : Option Level) : (sum inner).Consumes :=
  chain_consumes _ _ _

/-- Comparisons of sums. -/
def comparison (inner : Option Level) : Parser Expr :=
  chain comparisonOp? (sum inner) (sum_consumes inner)

theorem comparison_consumes (inner : Option Level) : (comparison inner).Consumes :=
  chain_consumes _ _ _

/-- The level above a given one, or the deepest level of all. -/
def above (inner : Option Level) : Level where
  unary := signedOperand inner
  expr := comparison inner
  unary_consumes := signedOperand_consumes inner
  expr_consumes := comparison_consumes inner

/-- The level with a given number of levels below it. -/
def ofDepth : Nat → Level
  | 0 => above none
  | depth + 1 => above (some (ofDepth depth))

end Level

/-- Expressions, nested up to the limit. -/
def Expr.parser : Parser Expr :=
  (Level.ofDepth maxNesting).expr

theorem Expr.parser_consumes : Expr.parser.Consumes :=
  (Level.ofDepth maxNesting).expr_consumes

/-! ### Sentences and segments -/

namespace Sentence

/-- The path that a sentence assigns to. -/
def targetPath : Parser String := fun ts =>
  match ts with
  | [] => .error ⟨0, .expectedTarget .finish⟩
  | t :: rest =>
    match t.kind with
    | .path p => .ok (p, rest)
    | other => .error ⟨t.start, .expectedTarget other⟩

/-- One assignment. -/
def parser : Parser Sentence := do
  let path ← Sentence.targetPath
  expect .assign
  let value ← Expr.parser
  return ⟨path, value⟩

theorem targetPath_consumes : Sentence.targetPath.Consumes := by
  intro ts p rest h
  unfold Sentence.targetPath at h
  split at h
  · cases h
  · split at h
    · cases h; simp
    · cases h

theorem parser_consumes : Sentence.parser.Consumes :=
  targetPath_consumes.bind fun _ => ((expect_consumes _).bind fun _ =>
    (Expr.parser_consumes.bind fun _ => pure_keeps _).keeps).keeps

/-- The sentences of a block after its opening brace, and its closing brace. A semicolon may
stand after the last sentence. -/
def blockFrom (ts : List Token) : Except Stop (List Sentence × List Token) :=
  if peek ts = .mark .closeBrace then .ok ([], ts.tail)
  else
    match _h : Sentence.parser ts with
    | .error e => .error e
    | .ok (_, []) => .error ⟨0, .expected (.mark .closeBrace) .finish⟩
    | .ok (s, t :: rest) =>
      if t.kind = .mark .semicolon then
        match blockFrom rest with
        | .error e => .error e
        | .ok (ss, last) => .ok (s :: ss, last)
      else if t.kind = .mark .closeBrace then .ok ([s], rest)
      else .error ⟨t.start, .expected (.mark .closeBrace) t.kind⟩
termination_by ts.length
decreasing_by
  have := Sentence.parser_consumes _h
  simp only [List.length_cons] at this
  omega

theorem blockFrom_keeps : Keeps blockFrom := by
  intro ts ss last h
  fun_induction blockFrom ts generalizing ss last with
  | case1 ts => cases h; simp
  | case2 => cases h
  | case3 => cases h
  | case4 => cases h
  | case5 ts _ s t rest hs _ ss' last' hss ih =>
    cases h
    have := ih hss
    have := Sentence.parser_consumes hs
    simp only [List.length_cons] at this
    omega
  | case6 ts _ s t rest hs =>
    cases h
    have := Sentence.parser_consumes hs
    simp only [List.length_cons] at this
    omega
  | case7 => cases h

/-- A block of sentences between braces. -/
def block : Parser (List Sentence) := do
  expect .openBrace
  blockFrom

theorem block_consumes : Sentence.block.Consumes :=
  (expect_consumes _).bind fun _ => blockFrom_keeps

end Sentence

namespace Segment

/-- The rest of a choice after its keyword. -/
def conditionParser : Parser Segment := do
  let test ← Expr.parser
  let thenBlock ← Sentence.block
  expect .elseWord
  let elseBlock ← Sentence.block
  return .condition test thenBlock elseBlock

/-- A sentence and its semicolon. -/
def sentenceParser : Parser Segment := do
  let s ← Sentence.parser
  expect .semicolon
  return .sentence s

/-- One segment. -/
def parser : Parser Segment := fun ts =>
  if peek ts = .mark .ifWord then conditionParser ts.tail else sentenceParser ts

theorem conditionParser_consumes : conditionParser.Consumes :=
  Expr.parser_consumes.bind fun _ => (Sentence.block_consumes.bind fun _ =>
    ((expect_consumes _).bind fun _ =>
      (Sentence.block_consumes.bind fun _ => pure_keeps _).keeps).keeps).keeps

theorem sentenceParser_consumes : sentenceParser.Consumes :=
  Sentence.parser_consumes.bind fun _ =>
    ((expect_consumes _).bind fun _ => pure_keeps _).keeps

theorem parser_consumes : Segment.parser.Consumes := by
  intro ts s rest h
  unfold Segment.parser at h
  split at h
  · have := conditionParser_consumes h
    simp only [List.length_tail] at this
    omega
  · exact sentenceParser_consumes h

/-- The segments up to the end of a script. -/
def parseAll (ts : List Token) : Except Stop (List Segment) :=
  if peek ts = .finish then .ok []
  else
    match _h : Segment.parser ts with
    | .error e => .error e
    | .ok (s, rest) =>
      match parseAll rest with
      | .error e => .error e
      | .ok ss => .ok (s :: ss)
termination_by ts.length
decreasing_by exact Segment.parser_consumes _h

end Segment

/-! ### Whole texts -/

/-- The program of a script. -/
def Program.parse (src : String) : Except SyntaxError Program :=
  match Token.lex src with
  | .error stop => .error (stop.toError src)
  | .ok tokens =>
    match Segment.parseAll tokens with
    | .error stop => .error (stop.toError src)
    | .ok segments => .ok ⟨segments⟩

/-- The expression that makes up a whole text. -/
def Expr.parse (src : String) : Except SyntaxError Expr :=
  match Token.lex src with
  | .error stop => .error (stop.toError src)
  | .ok tokens =>
    match Expr.parser tokens with
    | .error stop => .error (stop.toError src)
    | .ok (e, rest) =>
      match expectFinish rest with
      | .error stop => .error (stop.toError src)
      | .ok _ => .ok e

end RigScript
