/-
# Programs with a hole

A *context* is a program with a hole in one of its lists of statements: in the list of the program
itself, or in that of a block, of a branch or of a function, at any depth.  Statements are put into
the hole by `fill`, and take their place between those that stand in front of it and behind.

What the value of a filled context depends on is how the statements in the hole are evaluated there.
So lists of statements that are evaluated alike, whatever stands behind them, may be exchanged in
every context (`Program.Context.eval_fill`).
-/
import Mathlib.Tactic.Common
import TreeWalk.Eval

namespace TreeWalk

/-- A conditional, with or without an alternative. -/
def Expression.conditional (condition : Expression) (consequence : List Statement) :
    Option (List Statement) → Expression
  | none => .ifThen condition consequence
  | some alternative => .ifElse condition consequence alternative

mutual

/-- An expression with a hole. -/
inductive Expression.Context where
  /-- The hole is in the operand of an operator. -/
  | unary (op : UnaryOp) (operand : Expression.Context)
  /-- The hole is in the left operand. -/
  | left (op : BinaryOp) (left : Expression.Context) (right : Expression)
  /-- The hole is in the right operand. -/
  | right (op : BinaryOp) (left : Expression) (right : Expression.Context)
  /-- The hole is in the condition of a conditional. -/
  | condition (condition : Expression.Context) (consequence : List Statement)
    (alternative : Option (List Statement))
  /-- The hole is in the branch that is taken if the condition holds. -/
  | consequence (condition : Expression) (consequence : Program.Context)
    (alternative : Option (List Statement))
  /-- The hole is in the branch that is taken if the condition does not hold. -/
  | alternative (condition : Expression) (consequence : List Statement)
    (alternative : Program.Context)
  | block (body : Program.Context)
  | function (parameters : List String) (body : Program.Context)
  /-- The hole is in a function that is called. -/
  | callee (callee : Expression.Context) (arguments : List Expression)
  /-- The hole is in an argument of a call. -/
  | argument (callee : Expression) (before : List Expression) (argument : Expression.Context)
    (behind : List Expression)

/-- A statement with a hole. -/
inductive Statement.Context where
  | binding (name : String) (value : Expression.Context)
  | returning (value : Expression.Context)
  | expression (value : Expression.Context)
  | block (body : Program.Context)

/-- A list of statements with a hole. -/
inductive Program.Context where
  /-- The hole is in the list itself. -/
  | here (before behind : List Statement)
  /-- The hole is in a statement of the list. -/
  | inside (before : List Statement) (statement : Statement.Context) (behind : List Statement)

end

/-! ### Filling the hole -/

mutual

/-- The expression with statements in its hole. -/
def Expression.Context.fill (body : List Statement) : Expression.Context → Expression
  | .unary op operand => .unary op (operand.fill body)
  | .left op left right => .binary op (left.fill body) right
  | .right op left right => .binary op left (right.fill body)
  | .condition condition consequence alternative? =>
    .conditional (condition.fill body) consequence alternative?
  | .consequence condition consequence alternative? =>
    .conditional condition (consequence.fill body) alternative?
  | .alternative condition consequence alternative =>
    .conditional condition consequence (some (alternative.fill body))
  | .block inner => .block (inner.fill body)
  | .function parameters inner => .function parameters (inner.fill body)
  | .callee callee arguments => .call (callee.fill body) arguments
  | .argument callee before argument behind =>
    .call callee (before ++ argument.fill body :: behind)

/-- The statement with statements in its hole. -/
def Statement.Context.fill (body : List Statement) : Statement.Context → Statement
  | .binding name value => .binding name (value.fill body)
  | .returning value => .returning (value.fill body)
  | .expression value => .expression (value.fill body)
  | .block inner => .block (inner.fill body)

/-- The list of statements with statements in its hole. -/
def Program.Context.fill (body : List Statement) : Program.Context → Program
  | .here before behind => before ++ (body ++ behind)
  | .inside before statement behind => before ++ statement.fill body :: behind

end

/-! ### What the hole is filled with -/

/-- What a conditional gives. -/
lemma Expression.eval_conditional (condition : Expression) (consequence : List Statement)
    (alternative? : Option (List Statement)) :
    (conditional condition consequence alternative?).eval = (do
      if Result.holds (← condition.eval) then
        Statement.evalEach none consequence
      else
        match alternative? with
        | none => return some .nothing
        | some alternative => Statement.evalEach none alternative) := by
  cases alternative? with
  | none => rw [conditional, eval]
  | some alternative => rw [conditional, eval]

lemma Expression.eval_conditional_of_holds {condition : Expression} {v : Option Object}
    (hv : condition.eval = .ok v) (h : Result.holds v = true) (consequence : List Statement)
    (alternative? : Option (List Statement)) :
    (conditional condition consequence alternative?).eval =
      Statement.evalEach none consequence := by
  rw [eval_conditional, hv]
  exact if_pos h

lemma Expression.eval_conditional_of_not_holds {condition : Expression} {v : Option Object}
    (hv : condition.eval = .ok v) (h : Result.holds v = false)
    (consequence alternative : List Statement) :
    (conditional condition consequence (some alternative)).eval =
      Statement.evalEach none alternative := by
  rw [eval_conditional, hv]
  exact if_neg (Bool.eq_false_iff.mp h)

/-- Two lists of statements are evaluated alike, whatever stands behind them. -/
def Statement.Interchangeable (a b : List Statement) : Prop :=
  ∀ last behind, evalEach last (a ++ behind) = evalEach last (b ++ behind)

/-- What stands behind some statements matters only through its own evaluation. -/
lemma Statement.evalEach_append_congr {x y : List Statement}
    (h : ∀ last, evalEach last x = evalEach last y) (before : List Statement)
    (last : Option Object) : evalEach last (before ++ x) = evalEach last (before ++ y) := by
  induction before generalizing last with
  | nil => exact h last
  | cons s before ih => simp only [List.cons_append, evalEach, ih]

section Exchange

variable {a b : List Statement}

mutual

theorem Expression.Context.eval_fill (h : Statement.Interchangeable a b) :
    ∀ C : Expression.Context, (C.fill a).eval = (C.fill b).eval
  | .unary op C => by
    simp only [Expression.Context.fill, Expression.eval, C.eval_fill h]
  | .left op C right => by
    simp only [Expression.Context.fill, Expression.eval, C.eval_fill h]
  | .right op left C => by
    simp only [Expression.Context.fill, Expression.eval, C.eval_fill h]
  | .condition C consequence alternative? => by
    simp only [Expression.Context.fill, Expression.eval_conditional, C.eval_fill h]
  | .consequence condition C alternative? => by
    simp only [Expression.Context.fill, Expression.eval_conditional, C.evalEach_fill h]
  | .alternative condition consequence C => by
    simp only [Expression.Context.fill, Expression.eval_conditional, C.evalEach_fill h]
  | .block C => by
    simp only [Expression.Context.fill, Expression.eval, C.evalEach_fill h]
  -- functions and calls are not evaluated inside
  | .function _ _ | .callee _ _ | .argument _ _ _ _ => by
    simp only [Expression.Context.fill, Expression.eval]

theorem Statement.Context.eval_fill (h : Statement.Interchangeable a b) :
    ∀ C : Statement.Context, (C.fill a).eval = (C.fill b).eval
  | .binding name C => by
    simp only [Statement.Context.fill, Statement.eval]
  | .returning C => by
    simp only [Statement.Context.fill, Statement.eval, C.eval_fill h]
  | .expression C => by
    simp only [Statement.Context.fill, Statement.eval, C.eval_fill h]
  | .block C => by
    simp only [Statement.Context.fill, Statement.eval, C.evalEach_fill h]

theorem Program.Context.evalEach_fill (h : Statement.Interchangeable a b) :
    ∀ (C : Program.Context) (last : Option Object),
      Statement.evalEach last (C.fill a) = Statement.evalEach last (C.fill b)
  | .here before behind, last =>
    Statement.evalEach_append_congr (fun last => h last behind) before last
  | .inside before C behind, last => by
    refine Statement.evalEach_append_congr (fun last => ?_) before last
    rw [Statement.evalEach, Statement.evalEach, C.eval_fill h]

end

/-- Statements that are evaluated alike may be exchanged at any place in a program. -/
theorem Program.Context.eval_fill (h : Statement.Interchangeable a b) (C : Program.Context) :
    Program.eval (C.fill a) = Program.eval (C.fill b) := by
  rw [Program.eval, Program.eval, C.evalEach_fill h]

end Exchange
end TreeWalk
