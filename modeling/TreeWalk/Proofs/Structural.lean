/-
# Evaluation by structure alone

The evaluator tells truth and equality by the identity of objects.  *Plain evaluation* has no
identities: it works on values, and compares these as they are.  The two agree, because all truth
values and all nulls that an evaluation gives are the objects that the evaluator keeps
(`Expression.eval_eq_embed`), and among such objects identity is equality (`Value.same_object`).
-/
import TreeWalk.Eval

namespace TreeWalk

/-! ### Plain evaluation -/

/-- What plain evaluation gives: a value, or nothing. -/
abbrev Plain := Except Fault (Option Value)

namespace Value

/-- Does a value count as true?  All do but `false` and null. -/
def holds (v : Value) : Bool :=
  v ≠ boolean false ∧ v ≠ null

/-- The truth value that `!` gives: true for `false` and null, and false for all others. -/
def not (v : Value) : Value :=
  boolean (v = boolean false ∨ v = null)

/-- What `-` gives: null, unless the operand is an integer. -/
def negate : Value → Except Fault Value
  | integer n => return integer (← Arithmetic.negate n)
  | _ => return null

/-- Are two values, not both integers, equal?  Only truth values and nulls can be. -/
def equal : Value → Value → Bool
  | boolean a, boolean b => a = b
  | null, null => true
  | _, _ => false

/-- What an operator between two integers gives. -/
def ofIntegers (op : BinaryOp) (l r : Int64) : Except Fault Value :=
  match op with
  | .add => return integer (← Arithmetic.checked op l r (l.toInt + r.toInt))
  | .subtract => return integer (← Arithmetic.checked op l r (l.toInt - r.toInt))
  | .multiply => return integer (← Arithmetic.checked op l r (l.toInt * r.toInt))
  | .divide => return integer (← Arithmetic.divide l r)
  | .greater => return boolean (r < l)
  | .less => return boolean (l < r)
  | .equal => return boolean (l = r)
  | .notEqual => return boolean (l ≠ r)

/-- What an operator between two values gives. -/
def combine (op : BinaryOp) (a b : Value) : Except Fault Value :=
  match a, b with
  | integer l, integer r => ofIntegers op l r
  | a, b =>
    match op with
    | .equal => return boolean (a.equal b)
    | .notEqual => return boolean (!a.equal b)
    | _ => return null

end Value

namespace Plain

/-- What an operator in front of an operand gives, if the operand may give nothing. -/
def unary : UnaryOp → Option Value → Plain
  | .not, some v => return some v.not
  | .not, none => return some (.boolean false)
  | .negate, some v => return some (← v.negate)
  | .negate, none => return none

/-- What an operator between two operands gives, if these may give nothing. -/
def binary (op : BinaryOp) : Option Value → Option Value → Plain
  | some a, some b => return some (← a.combine op b)
  | _, _ => return none

/-- Does a condition hold?  One that gives nothing does. -/
def holds : Option Value → Bool
  | some v => v.holds
  | none => true

/-- Does evaluation stop here, because of a return? -/
def stops : Option Value → Bool
  | some (.returned _) | some .emptyReturn => true
  | _ => false

/-- The return that carries what was given. -/
def wrap : Option Value → Value
  | some v => .returned v
  | none => .emptyReturn

/-- What was given, without the wrapper of a return. -/
def unwrap : Option Value → Option Value
  | some (.returned v) => some v
  | some .emptyReturn => none
  | given => given

end Plain

mutual

/-- What plain evaluation gives for an expression. -/
def Expression.plainEval : Expression → Plain
  | .integer n => return some (.integer n)
  | .boolean b => return some (.boolean b)
  | .unary op e => do Plain.unary op (← e.plainEval)
  | .binary op l r => do
    let a ← l.plainEval
    let b ← r.plainEval
    Plain.binary op a b
  | .ifThen c t => do
    if Plain.holds (← c.plainEval) then
      Statement.plainEvalEach none t
    else
      return some .null
  | .ifElse c t e => do
    if Plain.holds (← c.plainEval) then
      Statement.plainEvalEach none t
    else
      Statement.plainEvalEach none e
  | .block b => Statement.plainEvalEach none b
  | .identifier _ => return none
  | .function _ _ => return none
  | .call _ _ => return none

/-- What plain evaluation gives for a statement. -/
def Statement.plainEval : Statement → Plain
  | .binding _ _ => return none
  | .returning e => return some (Plain.wrap (← e.plainEval))
  | .expression e => e.plainEval
  | .block b => Statement.plainEvalEach none b

/-- What plain evaluation gives for statements one after the other, behind one that gave `last`. -/
def Statement.plainEvalEach (last : Option Value) : List Statement → Plain
  | [] => return last
  | s :: ss => do
    let given ← s.plainEval
    if Plain.stops given then
      return given
    else
      Statement.plainEvalEach given ss

end

/-- What plain evaluation gives for a program. -/
def Program.plainEval (p : Program) : Plain :=
  return Plain.unwrap (← Statement.plainEvalEach none p)

/-! ### The objects that evaluation gives -/

namespace Value

/-- The object that an evaluation gives for a value. -/
def object : Value → Object
  | integer n => .integer n
  | boolean b => .truth b
  | null => .nothing
  | returned v => .returned v.object
  | emptyReturn => .emptyReturn

@[simp] theorem value_object : ∀ v : Value, v.object.value = v
  | integer _ | boolean _ | null | emptyReturn => rfl
  | returned v => by rw [object, Object.value, v.value_object]

/-- Two objects that evaluation gives, not both integers, are one and the same if their values are
equal. -/
theorem same_object (a b : Value) : a.object.same b.object = a.equal b := by
  cases a <;> cases b <;>
    simp [object, Object.same, Object.shared?, Object.truth, Object.nothing, equal]

theorem holds_object (v : Value) : v.object.holds = v.holds := by
  show (!v.object.same null.object && !v.object.same (boolean false).object) = v.holds
  rw [same_object, same_object]
  cases v <;> simp [equal, holds]

theorem not_object (v : Value) : v.object.not = v.not.object := by
  show (if v.object.same (boolean true).object then (boolean false).object
    else if v.object.same (boolean false).object || v.object.same null.object then
      (boolean true).object
    else (boolean false).object) = v.not.object
  rw [same_object, same_object, same_object]
  cases v with
  | boolean b => cases b <;> rfl
  | _ => rfl

theorem negate_object (v : Value) : v.object.negate = v.negate.map object := by
  cases v with
  | integer n =>
    show (do return Object.integer (← Arithmetic.negate n)) = _
    rw [negate]
    cases Arithmetic.negate n <;> rfl
  | _ => rfl

theorem ofIntegers_object (op : BinaryOp) (l r : Int64) :
    Object.ofIntegers op l r = (ofIntegers op l r).map object := by
  have made (x : Except Fault Int64) :
      (do return Object.integer (← x)) =
        (do return integer (← x) : Except Fault Value).map object := by
    cases x <;> rfl
  cases op with
  | greater | less | equal | notEqual => rfl
  | _ => exact made _

theorem combine_object (op : BinaryOp) (a b : Value) :
    a.object.combine op b.object = (a.combine op b).map object := by
  -- what both do with operands that are not both integers
  have told : (match op with
      | .equal => return Object.truth (a.object.same b.object)
      | .notEqual => return Object.truth (!a.object.same b.object)
      | _ => return Object.nothing : Except Fault Object) =
      (match op with
      | .equal => return boolean (a.equal b)
      | .notEqual => return boolean (!a.equal b)
      | _ => return null : Except Fault Value).map object := by
    rw [same_object]
    cases op <;> rfl
  cases a with
  | integer l =>
    cases b with
    | integer r => exact ofIntegers_object op l r
    | _ => exact told
  | _ => exact told

end Value

namespace Plain

/-- What evaluation gives where plain evaluation gives `x`. -/
def embed (x : Plain) : Result :=
  x.map (Option.map Value.object)

/-- Evaluation goes on with objects as it does with values. -/
theorem embed_bind {x : Plain} {f : Option Object → Result} {g : Option Value → Plain}
    (h : ∀ v, f (v.map Value.object) = (g v).embed) : x.embed >>= f = embed (x >>= g) := by
  cases x with
  | error fault => rfl
  | ok v => exact h v

theorem unary_map_object (op : UnaryOp) (v : Option Value) :
    Result.unary op (v.map Value.object) = (unary op v).embed := by
  cases op with
  | not =>
    cases v with
    | none => rfl
    | some v =>
      show (return some v.object.not : Result) = _
      rw [Value.not_object]
      rfl
  | negate =>
    cases v with
    | none => rfl
    | some v =>
      show (do return some (← v.object.negate) : Result) = _
      rw [Value.negate_object, unary]
      cases v.negate <;> rfl

theorem binary_map_object (op : BinaryOp) (a b : Option Value) :
    Result.binary op (a.map Value.object) (b.map Value.object) = (binary op a b).embed := by
  cases a with
  | none => rfl
  | some a =>
    cases b with
    | none => rfl
    | some b =>
      show (do return some (← a.object.combine op b.object) : Result) = _
      rw [Value.combine_object, binary]
      cases a.combine op b <;> rfl

theorem holds_map_object (v : Option Value) :
    Result.holds (v.map Value.object) = holds v := by
  cases v with
  | none => rfl
  | some v => exact v.holds_object

theorem stops_map_object (v : Option Value) :
    Result.stops (v.map Value.object) = stops v := by
  cases v with
  | none => rfl
  | some v => cases v <;> rfl

theorem wrap_map_object (v : Option Value) :
    Result.wrap (v.map Value.object) = (wrap v).object := by
  cases v <;> rfl

theorem unwrap_map_object (v : Option Value) :
    Result.unwrap (v.map Value.object) = (unwrap v).map Value.object := by
  cases v with
  | none => rfl
  | some v => cases v <;> rfl

end Plain

mutual

theorem Expression.eval_eq_embed : ∀ e : Expression, e.eval = e.plainEval.embed
  | .integer _ | .boolean _ | .identifier _ | .function _ _ | .call _ _ => by
    simp only [Expression.eval, Expression.plainEval]
    rfl
  | .unary op e => by
    rw [Expression.eval, Expression.plainEval, e.eval_eq_embed]
    exact Plain.embed_bind fun v => Plain.unary_map_object op v
  | .binary op l r => by
    rw [Expression.eval, Expression.plainEval, l.eval_eq_embed, r.eval_eq_embed]
    exact Plain.embed_bind fun a => Plain.embed_bind fun b => Plain.binary_map_object op a b
  | .ifThen c t => by
    rw [Expression.eval, Expression.plainEval, c.eval_eq_embed]
    refine Plain.embed_bind fun v => ?_
    rw [Plain.holds_map_object]
    cases Plain.holds v with
    | true => exact Statement.evalEach_eq_embed none t
    | false => rfl
  | .ifElse c t e => by
    rw [Expression.eval, Expression.plainEval, c.eval_eq_embed]
    refine Plain.embed_bind fun v => ?_
    rw [Plain.holds_map_object]
    cases Plain.holds v with
    | true => exact Statement.evalEach_eq_embed none t
    | false => exact Statement.evalEach_eq_embed none e
  | .block b => by
    rw [Expression.eval, Expression.plainEval]
    exact Statement.evalEach_eq_embed none b

theorem Statement.eval_eq_embed : ∀ s : Statement, s.eval = s.plainEval.embed
  | .binding _ _ => by
    rw [Statement.eval, Statement.plainEval]
    rfl
  | .returning e => by
    rw [Statement.eval, Statement.plainEval, e.eval_eq_embed]
    refine Plain.embed_bind fun v => ?_
    rw [Plain.wrap_map_object]
    rfl
  | .expression e => by
    rw [Statement.eval, Statement.plainEval]
    exact e.eval_eq_embed
  | .block b => by
    rw [Statement.eval, Statement.plainEval]
    exact Statement.evalEach_eq_embed none b

theorem Statement.evalEach_eq_embed (last : Option Value) : ∀ ss : List Statement,
    Statement.evalEach (last.map Value.object) ss = (Statement.plainEvalEach last ss).embed
  | [] => by
    rw [Statement.evalEach, Statement.plainEvalEach]
    rfl
  | s :: ss => by
    rw [Statement.evalEach, Statement.plainEvalEach, s.eval_eq_embed]
    refine Plain.embed_bind fun v => ?_
    rw [Plain.stops_map_object, Statement.evalEach_eq_embed v ss]
    cases Plain.stops v <;> rfl

end

theorem Program.eval_eq_embed (p : Program) : Program.eval p = (Program.plainEval p).embed := by
  rw [Program.eval, Program.plainEval, ← Option.map_none Value.object, Statement.evalEach_eq_embed]
  refine Plain.embed_bind fun v => ?_
  rw [Plain.unwrap_map_object]
  rfl

/-! ### The evaluator without identities -/

/-- What evaluation gives, with the identity of objects forgotten. -/
def Result.erase (x : Result) : Plain :=
  x.map (Option.map Object.value)

@[simp] theorem Plain.erase_embed (x : Plain) : x.embed.erase = x := by
  cases x with
  | error fault => rfl
  | ok v => cases v <;> simp [embed, Result.erase, Except.map]

theorem Program.erase_eval (p : Program) : (Program.eval p).erase = Program.plainEval p := by
  rw [Program.eval_eq_embed, Plain.erase_embed]

theorem Statement.erase_eval (s : Statement) : s.eval.erase = s.plainEval := by
  rw [s.eval_eq_embed, Plain.erase_embed]

theorem Expression.erase_eval (e : Expression) : e.eval.erase = e.plainEval := by
  rw [e.eval_eq_embed, Plain.erase_embed]

end TreeWalk
