/-
# Evaluation

Evaluating a statement or an expression gives an object, or nothing at all, or a fault.  Nothing
is what a binding gives, a name, a function and a call: they are read but have no effect here.

The value of a list of statements is that of the last one, unless one before it gives a return:
then the list stops there and gives the return, still wrapped.  Only the program itself unwraps
it.  An operand or a condition that gives a return is an operand or a condition like any other.

What counts as true is told by identity, and so is the equality of two objects that are not both
integers.
-/
import TreeWalk.Arithmetic
import TreeWalk.Value

namespace TreeWalk

/-- What evaluation gives: an object, or nothing. -/
abbrev Result := Except Fault (Option Object)

namespace Object

/-- Does an object count as true?  All do but `false` and null. -/
def holds (o : Object) : Bool :=
  !o.same nothing && !o.same (truth false)

/-- The truth value that `!` gives. -/
def not (o : Object) : Object :=
  if o.same (truth true) then truth false
  else if o.same (truth false) || o.same nothing then truth true
  else truth false

/-- What `-` gives: null, unless the operand is an integer. -/
def negate : Object → Except Fault Object
  | integer n => return integer (← Arithmetic.negate n)
  | _ => return nothing

/-- What an operator between two integers gives. -/
def ofIntegers (op : BinaryOp) (l r : Int64) : Except Fault Object :=
  match op with
  | .add => return integer (← Arithmetic.checked op l r (l.toInt + r.toInt))
  | .subtract => return integer (← Arithmetic.checked op l r (l.toInt - r.toInt))
  | .multiply => return integer (← Arithmetic.checked op l r (l.toInt * r.toInt))
  | .divide => return integer (← Arithmetic.divide l r)
  | .greater => return truth (r < l)
  | .less => return truth (l < r)
  | .equal => return truth (l = r)
  | .notEqual => return truth (l ≠ r)

/-- What an operator between two objects gives. -/
def combine (op : BinaryOp) (a b : Object) : Except Fault Object :=
  match a, b with
  | integer l, integer r => ofIntegers op l r
  | a, b =>
    match op with
    | .equal => return truth (a.same b)
    | .notEqual => return truth (!a.same b)
    | _ => return nothing

end Object

namespace Result

/-- What an operator in front of an operand gives, if the operand may give nothing. -/
def unary : UnaryOp → Option Object → Result
  | .not, some o => return some o.not
  | .not, none => return some (.truth false)
  | .negate, some o => return some (← o.negate)
  | .negate, none => return none

/-- What an operator between two operands gives, if these may give nothing. -/
def binary (op : BinaryOp) : Option Object → Option Object → Result
  | some a, some b => return some (← a.combine op b)
  | _, _ => return none

/-- Does a condition hold?  One that gives nothing does. -/
def holds : Option Object → Bool
  | some o => o.holds
  | none => true

/-- Does evaluation stop here, because of a return? -/
def stops : Option Object → Bool
  | some o => o.isReturn
  | none => false

/-- The return that carries what was given. -/
def wrap : Option Object → Object
  | some o => .returned o
  | none => .emptyReturn

/-- What was given, without the wrapper of a return. -/
def unwrap : Option Object → Option Object
  | some (.returned o) => some o
  | some .emptyReturn => none
  | given => given

end Result

mutual

/-- Evaluate an expression. -/
def Expression.eval : Expression → Result
  | .integer n => return some (.integer n)
  | .boolean b => return some (.truth b)
  | .unary op e => do Result.unary op (← e.eval)
  | .binary op l r => do
    let a ← l.eval
    let b ← r.eval
    Result.binary op a b
  | .ifThen c t => do
    if Result.holds (← c.eval) then
      Statement.evalEach none t
    else
      return some .nothing
  | .ifElse c t e => do
    if Result.holds (← c.eval) then
      Statement.evalEach none t
    else
      Statement.evalEach none e
  | .block b => Statement.evalEach none b
  | .identifier _ => return none
  | .function _ _ => return none
  | .call _ _ => return none

/-- Evaluate a statement. -/
def Statement.eval : Statement → Result
  | .binding _ _ => return none
  | .returning e => return some (Result.wrap (← e.eval))
  | .expression e => e.eval
  | .block b => Statement.evalEach none b

/-- Evaluate statements one after the other, behind one that gave `last`. -/
def Statement.evalEach (last : Option Object) : List Statement → Result
  | [] => return last
  | s :: ss => do
    let given ← s.eval
    if Result.stops given then
      return given
    else
      Statement.evalEach given ss

end

/-- Evaluate a program. -/
def Program.eval (p : Program) : Result :=
  return Result.unwrap (← Statement.evalEach none p)

end TreeWalk
