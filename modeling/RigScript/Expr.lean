/-!
# The shape of a script

A script is a list of segments. A segment assigns the value of an expression to a path, or chooses
between two blocks of assignments. Expressions are built from numbers and paths with signs, the
arithmetic and comparison operators, calls and brackets; brackets are kept.

## Main definitions

* `RigScript.Expr`: expressions
* `RigScript.Sentence`: one assignment
* `RigScript.Segment`: an assignment or a choice
* `RigScript.Program`: a script
-/

namespace RigScript

/-- The signs. -/
inductive UnaryOp where
  | plus
  | minus
deriving DecidableEq, Repr

/-- The operators between two operands. -/
inductive BinaryOp where
  | add
  | subtract
  | multiply
  | divide
  | modulo
  | equal
  | unequal
deriving DecidableEq, Repr

/-- How an operator is written. -/
def BinaryOp.symbol : BinaryOp → String
  | add => "+"
  | subtract => "-"
  | multiply => "*"
  | divide => "/"
  | modulo => "%"
  | equal => "=="
  | unequal => "!="

/-- Expressions. -/
inductive Expr where
  | number (value : Float)
  | path (text : String)
  | unary (op : UnaryOp) (operand : Expr)
  | binary (op : BinaryOp) (left right : Expr)
  | call (function : String) (arguments : List Expr)
  | brackets (inner : Expr)
deriving Repr

/-! ### Equality -/

mutual

/-- Whether two expressions are the same. -/
def Expr.beq : Expr → Expr → Bool
  | .number x, .number y => x = y
  | .path s, .path t => s = t
  | .unary op a, .unary op' b => op = op' && a.beq b
  | .binary op a b, .binary op' a' b' => op = op' && a.beq a' && b.beq b'
  | .call f as, .call f' bs => f = f' && Expr.beqAll as bs
  | .brackets a, .brackets b => a.beq b
  | _, _ => false

/-- Whether two lists of expressions are the same. -/
def Expr.beqAll : List Expr → List Expr → Bool
  | [], [] => true
  | a :: as, b :: bs => a.beq b && Expr.beqAll as bs
  | _, _ => false

end

mutual

theorem Expr.beq_iff (a b : Expr) : a.beq b = true ↔ a = b := by
  match a with
  | .number x => cases b <;> simp [Expr.beq]
  | .path s => cases b <;> simp [Expr.beq]
  | .unary op a =>
    cases b with
    | unary op' b => simp [Expr.beq, Expr.beq_iff a b]
    | _ => simp [Expr.beq]
  | .binary op a₁ a₂ =>
    cases b with
    | binary op' b₁ b₂ => simp [Expr.beq, Expr.beq_iff a₁ b₁, Expr.beq_iff a₂ b₂, and_assoc]
    | _ => simp [Expr.beq]
  | .call f as =>
    cases b with
    | call f' bs => simp [Expr.beq, Expr.beqAll_iff as bs]
    | _ => simp [Expr.beq]
  | .brackets a =>
    cases b with
    | brackets b => simp [Expr.beq, Expr.beq_iff a b]
    | _ => simp [Expr.beq]

theorem Expr.beqAll_iff (as bs : List Expr) : Expr.beqAll as bs = true ↔ as = bs := by
  match as with
  | [] => cases bs <;> simp [Expr.beqAll]
  | a :: as =>
    cases bs with
    | nil => simp [Expr.beqAll]
    | cons b bs => simp [Expr.beqAll, Expr.beq_iff a b, Expr.beqAll_iff as bs]

end

instance : DecidableEq Expr := fun a b =>
  decidable_of_iff _ (Expr.beq_iff a b)

/-! ### Scripts -/

/-- One assignment of an expression to a path. -/
structure Sentence where
  /-- The path assigned to. -/
  target : String
  /-- The expression whose value it gets. -/
  value : Expr
deriving DecidableEq, Repr

/-- A part of a script. -/
inductive Segment where
  /-- A sentence of its own. -/
  | sentence (s : Sentence)
  /-- A choice between two blocks of sentences. -/
  | condition (test : Expr) (thenBlock elseBlock : List Sentence)
deriving DecidableEq, Repr

/-- A script. -/
structure Program where
  /-- Its parts in order. -/
  segments : List Segment
deriving DecidableEq, Repr

end RigScript
