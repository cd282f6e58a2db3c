/-
# How tightly operators bind

Operators are ordered in levels.  An operator of a higher level takes its operands first, and
operators of one level group to the left.  The arguments of a call bind most tightly.
-/
import TreeWalk.Syntax
import TreeWalk.Token

namespace TreeWalk

/-- The levels of binding, from the loosest to the tightest. -/
inductive Level where
  | lowest | equality | comparison | sum | product | unary | call
deriving DecidableEq, Repr

namespace Level

/-- The place of a level in the order. -/
def rank : Level → Nat
  | lowest => 0
  | equality => 1
  | comparison => 2
  | sum => 3
  | product => 4
  | unary => 5
  | call => 6

instance : LT Level := ⟨fun a b => a.rank < b.rank⟩

instance (a b : Level) : Decidable (a < b) :=
  inferInstanceAs (Decidable (a.rank < b.rank))

theorem lt_def {a b : Level} : a < b ↔ a.rank < b.rank := Iff.rfl

end Level

/-- The level of an operator. -/
def BinaryOp.level : BinaryOp → Level
  | equal | notEqual => .equality
  | less | greater => .comparison
  | add | subtract => .sum
  | multiply | divide => .product

/-- The operator that a sign between two operands stands for. -/
def BinaryOp.ofSign? : Symbol → Option BinaryOp
  | .plus => some add
  | .minus => some subtract
  | .star => some multiply
  | .slash => some divide
  | .greater => some greater
  | .less => some less
  | .equal => some equal
  | .notEqual => some notEqual
  | _ => none

/-- What may stand behind an operand and take it in. -/
inductive Continuation where
  /-- An operator, with the operand on its left. -/
  | operator (op : BinaryOp)
  /-- The arguments of a call, with the operand as the function. -/
  | arguments
deriving DecidableEq, Repr

namespace Continuation

/-- The continuation that begins with a token. -/
def ofToken? : Token → Option Continuation
  | .symbol .leftParen => some arguments
  | .symbol s => (BinaryOp.ofSign? s).map operator
  | _ => none

/-- The level of a continuation. -/
def level : Continuation → Level
  | operator op => op.level
  | arguments => .call

end Continuation
end TreeWalk
