/-
# Trees as text

A tree is written back as program text.  Every operator stands with its operands in parentheses
of its own, so the text shows how the operators bind and needs no rule to say so.
-/
import TreeWalk.Syntax
import TreeWalk.Text.Decimal
import TreeWalk.Token

namespace TreeWalk

/-! ### Operators -/

/-- The sign of an operator with one operand. -/
def UnaryOp.sign : UnaryOp → Symbol
  | not => .bang
  | negate => .minus

/-- The text of an operator with one operand. -/
def UnaryOp.text (op : UnaryOp) : String :=
  op.sign.text

/-- The sign of an operator with two operands. -/
def BinaryOp.sign : BinaryOp → Symbol
  | add => .plus
  | subtract => .minus
  | multiply => .star
  | divide => .slash
  | greater => .greater
  | less => .less
  | equal => .equal
  | notEqual => .notEqual

/-- The text of an operator with two operands. -/
def BinaryOp.text (op : BinaryOp) : String :=
  op.sign.text

/-! ### Trees -/

/-- The text of a truth value. -/
def truthText (b : Bool) : String :=
  if b then "true" else "false"

/-- A block with the texts of its statements, each between two spaces. -/
def braced (statements : List String) : String :=
  "\x7b" ++ String.join (statements.map fun s => " " ++ s ++ " ") ++ "\x7d"

mutual

/-- The text of an expression. -/
def Expression.render : Expression → String
  | .identifier name => name
  | .integer n => Decimal.text n.toInt
  | .boolean b => truthText b
  | .unary op e => "(" ++ op.text ++ e.render ++ ")"
  | .binary op l r => "(" ++ l.render ++ " " ++ op.text ++ " " ++ r.render ++ ")"
  | .ifThen c t => "if " ++ c.render ++ " " ++ braced (Statement.renderEach t)
  | .ifElse c t e =>
    "if " ++ c.render ++ " " ++ braced (Statement.renderEach t) ++ " else " ++
      braced (Statement.renderEach e)
  | .block b => braced (Statement.renderEach b)
  | .function ps b =>
    "fn(" ++ String.intercalate ", " ps ++ ") " ++ braced (Statement.renderEach b)
  | .call f es => f.render ++ "(" ++ String.intercalate ", " (Expression.renderEach es) ++ ")"

/-- The text of a statement. -/
def Statement.render : Statement → String
  | .binding name e => "let " ++ name ++ " = " ++ e.render ++ ";"
  | .returning e => "return " ++ e.render ++ ";"
  | .expression e => e.render
  | .block b => braced (Statement.renderEach b)

/-- The texts of some statements. -/
def Statement.renderEach : List Statement → List String
  | [] => []
  | s :: ss => s.render :: Statement.renderEach ss

/-- The texts of some expressions. -/
def Expression.renderEach : List Expression → List String
  | [] => []
  | e :: es => e.render :: Expression.renderEach es

end

theorem Statement.renderEach_eq_map (ss : List Statement) :
    Statement.renderEach ss = ss.map Statement.render := by
  induction ss with
  | nil => rfl
  | cons s ss ih => simp [Statement.renderEach, ih]

theorem Expression.renderEach_eq_map (es : List Expression) :
    Expression.renderEach es = es.map Expression.render := by
  induction es with
  | nil => rfl
  | cons e es ih => simp [Expression.renderEach, ih]

/-- The text of a program: its statements with nothing between them. -/
def Program.render (p : Program) : String :=
  String.join (p.map Statement.render)

end TreeWalk
