/-
# Syntax trees

A program is a list of statements.  Statements hold expressions, and expressions hold statements
again: the branches of a conditional, the body of a function and a block are lists of statements
that stand inside an expression.

Two trees are compared by `Expression.same` and `Statement.same`, which decide equality
(`Expression.same_iff`, `Statement.same_iff`).
-/
namespace TreeWalk

/-- An operator with one operand. -/
inductive UnaryOp where
  | not | negate
deriving DecidableEq, Repr

/-- An operator with two operands. -/
inductive BinaryOp where
  | add | subtract | multiply | divide | greater | less | equal | notEqual
deriving DecidableEq, Repr

mutual

/-- An expression. -/
inductive Expression where
  /-- A name. -/
  | identifier (name : String)
  /-- A number. -/
  | integer (value : Int64)
  /-- `true` or `false`. -/
  | boolean (value : Bool)
  /-- An operator in front of its operand. -/
  | unary (op : UnaryOp) (operand : Expression)
  /-- An operator between its operands. -/
  | binary (op : BinaryOp) (left right : Expression)
  /-- A conditional without `else`. -/
  | ifThen (condition : Expression) (consequence : List Statement)
  /-- A conditional with both branches. -/
  | ifElse (condition : Expression) (consequence alternative : List Statement)
  /-- A block where an expression is wanted. -/
  | block (body : List Statement)
  /-- A function with the names of its parameters. -/
  | function (parameters : List String) (body : List Statement)
  /-- The call of a function. -/
  | call (callee : Expression) (arguments : List Expression)

/-- A statement. -/
inductive Statement where
  /-- A name is bound by `let`. -/
  | binding (name : String) (value : Expression)
  /-- A value is given back by `return`. -/
  | returning (value : Expression)
  /-- An expression that stands alone. -/
  | expression (value : Expression)
  /-- A block that stands alone. -/
  | block (body : List Statement)

end

/-- A program: the statements of a whole text. -/
abbrev Program := List Statement

/-! ### Equality of trees -/

mutual

/-- Are two expressions the same tree? -/
def Expression.same : Expression → Expression → Bool
  | .identifier x, .identifier y => x == y
  | .integer m, .integer n => m == n
  | .boolean a, .boolean b => a == b
  | .unary o e, .unary p f => o == p && e.same f
  | .binary o l r, .binary p m s => o == p && l.same m && r.same s
  | .ifThen c t, .ifThen d u => c.same d && Statement.sameEach t u
  | .ifElse c t e, .ifElse d u f =>
    c.same d && Statement.sameEach t u && Statement.sameEach e f
  | .block b, .block d => Statement.sameEach b d
  | .function p b, .function q d => p == q && Statement.sameEach b d
  | .call f a, .call g b => f.same g && Expression.sameEach a b
  | _, _ => false

/-- Are two statements the same tree? -/
def Statement.same : Statement → Statement → Bool
  | .binding x e, .binding y f => x == y && e.same f
  | .returning e, .returning f => e.same f
  | .expression e, .expression f => e.same f
  | .block b, .block d => Statement.sameEach b d
  | _, _ => false

/-- Are two lists of statements the same, one by one? -/
def Statement.sameEach : List Statement → List Statement → Bool
  | [], [] => true
  | s :: ss, t :: ts => s.same t && Statement.sameEach ss ts
  | _, _ => false

/-- Are two lists of expressions the same, one by one? -/
def Expression.sameEach : List Expression → List Expression → Bool
  | [], [] => true
  | e :: es, f :: fs => e.same f && Expression.sameEach es fs
  | _, _ => false

end

mutual

theorem Expression.same_iff : ∀ e f : Expression, e.same f = true ↔ e = f
  | .identifier _, f => by cases f <;> simp [Expression.same]
  | .integer _, f => by cases f <;> simp [Expression.same]
  | .boolean _, f => by cases f <;> simp [Expression.same]
  | .unary _ e, f => by cases f <;> simp [Expression.same, e.same_iff]
  | .binary _ l r, f => by
    cases f <;> simp [Expression.same, l.same_iff, r.same_iff, and_assoc]
  | .ifThen c t, f => by
    cases f <;> simp [Expression.same, c.same_iff, Statement.sameEach_iff t]
  | .ifElse c t e, f => by
    cases f <;> simp [Expression.same, c.same_iff, Statement.sameEach_iff t,
      Statement.sameEach_iff e, and_assoc]
  | .block b, f => by cases f <;> simp [Expression.same, Statement.sameEach_iff b]
  | .function _ b, f => by cases f <;> simp [Expression.same, Statement.sameEach_iff b]
  | .call g a, f => by
    cases f <;> simp [Expression.same, g.same_iff, Expression.sameEach_iff a]

theorem Statement.same_iff : ∀ s t : Statement, s.same t = true ↔ s = t
  | .binding _ e, t => by cases t <;> simp [Statement.same, e.same_iff]
  | .returning e, t => by cases t <;> simp [Statement.same, e.same_iff]
  | .expression e, t => by cases t <;> simp [Statement.same, e.same_iff]
  | .block b, t => by cases t <;> simp [Statement.same, Statement.sameEach_iff b]

theorem Statement.sameEach_iff :
    ∀ ss ts : List Statement, Statement.sameEach ss ts = true ↔ ss = ts
  | [], ts => by cases ts <;> simp [Statement.sameEach]
  | s :: ss, ts => by
    cases ts <;> simp [Statement.sameEach, s.same_iff, Statement.sameEach_iff ss]

theorem Expression.sameEach_iff :
    ∀ es fs : List Expression, Expression.sameEach es fs = true ↔ es = fs
  | [], fs => by cases fs <;> simp [Expression.sameEach]
  | e :: es, fs => by
    cases fs <;> simp [Expression.sameEach, e.same_iff, Expression.sameEach_iff es]

end

instance : DecidableEq Expression := fun e f =>
  decidable_of_iff (e.same f = true) (e.same_iff f)

instance : DecidableEq Statement := fun s t =>
  decidable_of_iff (s.same t = true) (s.same_iff t)

instance : Inhabited Expression := ⟨.boolean false⟩

instance : Inhabited Statement := ⟨.block []⟩

end TreeWalk
