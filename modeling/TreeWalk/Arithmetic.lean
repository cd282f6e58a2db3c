/-
# Integers that do not wrap

A result is computed exactly, and is refused if it is no integer of 64 bits; so is a division by
zero.  Division drops the fraction.
-/
import TreeWalk.Integer
import TreeWalk.Syntax.Render

namespace TreeWalk

/-- Why integers have no result. -/
inductive Fault where
  /-- The integer was divided by zero. -/
  | divisionByZero (left : Int64)
  /-- The result of an operator between two integers is out of range. -/
  | overflow (op : BinaryOp) (left right : Int64)
  /-- The result of an operator in front of an integer is out of range. -/
  | unaryOverflow (op : UnaryOp) (operand : Int64)
deriving DecidableEq

/-- The text of a fault. -/
def Fault.message : Fault → String
  | divisionByZero l => "division by zero: " ++ Decimal.text l.toInt ++ " / 0"
  | overflow op l r =>
    "integer overflow: " ++ Decimal.text l.toInt ++ " " ++ op.text ++ " " ++ Decimal.text r.toInt
  | unaryOverflow op n => "integer overflow: " ++ op.text ++ Decimal.text n.toInt

namespace Arithmetic

/-- The negative of an integer. -/
def negate (n : Int64) : Except Fault Int64 :=
  match Integer.ofInt? (-n.toInt) with
  | some m => .ok m
  | none => .error (.unaryOverflow .negate n)

/-- The result of an operator between two integers, given the exact one. -/
def checked (op : BinaryOp) (l r : Int64) (exact : Int) : Except Fault Int64 :=
  match Integer.ofInt? exact with
  | some n => .ok n
  | none => .error (.overflow op l r)

/-- The quotient of two integers. -/
def divide (l r : Int64) : Except Fault Int64 :=
  if r = 0 then
    .error (.divisionByZero l)
  else
    checked .divide l r (l.toInt.tdiv r.toInt)

end Arithmetic
end TreeWalk
