/-
# Values and objects

A *value* is what an expression stands for: an integer, a truth value or null.  A `return` gives
its value in a wrapper, so that what lies around it can tell that it has to stop; the wrapper may
be empty.

Evaluation works on *objects*.  An object has a value, and beside it an identity: an evaluator
keeps one object for each truth value and one for null, gives these wherever their values are
wanted, and tells truth and equality by them.  All other objects are made when they are needed.
`Object.value` forgets the identity.
-/
import TreeWalk.Syntax.Render

namespace TreeWalk

/-- What an expression stands for. -/
inductive Value where
  | integer (n : Int64)
  | boolean (b : Bool)
  | null
  /-- A return with the value it carries. -/
  | returned (carried : Value)
  /-- A return that carries no value. -/
  | emptyReturn
deriving DecidableEq

namespace Value

/-- The name of the kind of a value. -/
def typeName : Value → String
  | integer _ => "INTEGER"
  | boolean _ => "BOOLEAN"
  | null => "NULL"
  | returned _ => "RETURN_VALUE"
  | emptyReturn => "RETURN_VALUE"

/-- The text of a value.  A return is shown as what it carries. -/
def render : Value → String
  | integer n => Decimal.text n.toInt
  | boolean b => truthText b
  | null => "null"
  | returned v => v.render
  | emptyReturn => ""

end Value

/-- The objects that an evaluator keeps. -/
inductive Shared where
  | truth (b : Bool)
  | null
deriving DecidableEq, Repr

/-- Whether a truth value or null is the object that the evaluator keeps, or a copy of it. -/
inductive Standing where
  | kept | copied
deriving DecidableEq, Repr

/-- A value with an identity. -/
inductive Object where
  | integer (n : Int64)
  | boolean (b : Bool) (standing : Standing)
  | null (standing : Standing)
  | returned (carried : Object)
  | emptyReturn
deriving DecidableEq

namespace Object

/-- The object that is kept for a truth value. -/
def truth (b : Bool) : Object :=
  boolean b .kept

/-- The object that is kept for null. -/
def nothing : Object :=
  null .kept

/-- The value of an object. -/
def value : Object → Value
  | integer n => .integer n
  | boolean b _ => .boolean b
  | null _ => .null
  | returned o => .returned o.value
  | emptyReturn => .emptyReturn

/-- Which of the kept objects an object is, if it is one. -/
def shared? : Object → Option Shared
  | boolean b .kept => some (.truth b)
  | null .kept => some .null
  | _ => none

/-- Are two objects, given by two steps of an evaluation, one and the same?  One that is not kept
was made in its own step, so no other step gives it again. -/
def same (a b : Object) : Bool :=
  match a.shared?, b.shared? with
  | some s, some t => s = t
  | _, _ => false

/-- Is the object a return, with or without a value? -/
def isReturn : Object → Bool
  | returned _ | emptyReturn => true
  | _ => false

@[simp] theorem value_truth (b : Bool) : (truth b).value = .boolean b := rfl

@[simp] theorem value_nothing : nothing.value = .null := rfl

@[simp] theorem shared?_truth (b : Bool) : (truth b).shared? = some (.truth b) := rfl

@[simp] theorem shared?_nothing : nothing.shared? = some .null := rfl

@[simp] theorem isReturn_truth (b : Bool) : (truth b).isReturn = false := rfl

@[simp] theorem isReturn_nothing : nothing.isReturn = false := rfl

theorem same_comm (a b : Object) : a.same b = b.same a := by
  unfold same
  cases a.shared? <;> cases b.shared? <;> simp [eq_comm]

end Object
end TreeWalk
