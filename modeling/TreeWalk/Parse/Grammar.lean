/-
# The grammar

Expressions are read by the levels of their operators.  To read an expression *above* a level is
to read an operand, and then to take in what stands behind it as long as that is an operator, or
the arguments of a call, of a higher level (`continued`).  The right operand of an operator is
read above the operator's own level, so operators of one level group to the left.

The parts of a construct are expressions and blocks, which have such parts themselves.  So each
parser below is given the parsers for its parts (`Parts`), and those are made from one another
by `Parts.ofDepth`.  A part begins behind the first token of what it is a part of; hence parts
lie in one another no deeper than there are tokens, and `Parts.ofDepth n` reads any text of `n`
tokens.

All this is said once for whatever parsers have the steps of `Parsing`: those that note the calls
they make (`Parser`), and those that have a tracer write them.
-/
import TreeWalk.Integer
import TreeWalk.Parse.Parser
import TreeWalk.Syntax.Level
import TreeWalk.Text.Decimal

namespace TreeWalk

/-- The parsers for the parts of a construct. -/
structure Parts (m : Type → Type := Parser) where
  /-- An expression above a level. -/
  expression : Level → m Expression
  /-- A block, braces included. -/
  block : m (List Statement)

namespace Grammar

open TreeWalk.Parser

variable {m : Type → Type} [Monad m] [Parsing m]

/-! ### Statements -/

/-- A binding: `let`, a name, `=` and an expression. -/
def binding (p : Parts m) : m Statement := do
  next
  match ← peek with
  | .ident name =>
    next
    expect (.symbol .assign)
    let e ← p.expression .lowest
    skip (.symbol .semicolon)
    return .binding name e
  | t => fail (.expected (.ident "") t)

/-- A return: `return` and an expression. -/
def returning (p : Parts m) : m Statement := do
  next
  let e ← p.expression .lowest
  skip (.symbol .semicolon)
  return .returning e

/-- A block that stands alone. -/
def blockStatement (p : Parts m) : m Statement := do
  let body ← p.block
  skip (.symbol .semicolon)
  return .block body

/-- An expression that stands alone. -/
def expressionStatement (p : Parts m) : m Statement := do
  let e ← p.expression .lowest
  skip (.symbol .semicolon)
  return .expression e

/-- A statement.  A semicolon behind it belongs to it. -/
def statement (p : Parts m) : m Statement :=
  called .statement do
    match ← peek with
    | .keyword .letWord => binding p
    | .keyword .returnWord => returning p
    | .symbol .leftBrace => blockStatement p
    | _ => called .expressionStatement (expressionStatement p)

/-! ### Blocks -/

/-- The text ends inside a block. -/
def unclosed {α : Type} : m α := do
  next
  fail (.expected (.symbol .rightBrace) .endOfInput)

/-- The statements of a block and the brace that closes it; `n` bounds their number. -/
def statements (p : Parts m) : Nat → m (List Statement)
  | 0 => unclosed
  | n + 1 => do
    match ← peek with
    | .symbol .rightBrace =>
      next
      leave
      return []
    | .endOfInput => unclosed
    | _ =>
      let s ← statement p
      let ss ← statements p n
      return s :: ss

/-- A block: statements in braces. -/
def block (p : Parts m) : m (List Statement) := do
  expect (.symbol .leftBrace)
  enter
  -- each statement takes a token at least, and so does the brace that closes the block
  statements p (← unread)

/-! ### Operands -/

/-- A number. -/
def integer (digits : String) : m Expression := do
  next
  match Integer.ofInt? (Decimal.value digits.toList) with
  | some n => return .integer n
  | none => fail (.integerTooLarge digits)

/-- An operator in front of its operand. -/
def unary (p : Parts m) (op : UnaryOp) : m Expression := do
  next
  let e ← p.expression .unary
  return .unary op e

/-- An expression in parentheses. -/
def grouped (p : Parts m) : m Expression := do
  next
  let e ← p.expression .lowest
  expect (.symbol .rightParen)
  return e

/-- A conditional: `if`, a condition in parentheses, a block, and perhaps `else` and a block. -/
def conditional (p : Parts m) : m Expression := do
  next
  expect (.symbol .leftParen)
  let condition ← p.expression .lowest
  expect (.symbol .rightParen)
  let consequence ← block p
  if (← peek) = .keyword .elseWord then
    next
    let alternative ← block p
    return .ifElse condition consequence alternative
  else
    return .ifThen condition consequence

/-- The name of a parameter. -/
def parameter : m String := do
  let t ← peek
  next
  match t with
  | .ident name => return name
  | t => fail (.expected (.ident "") t)

/-- A function: `fn`, parameters in parentheses, and a block. -/
def function (p : Parts m) : m Expression := do
  next
  expect (.symbol .leftParen)
  let parameters ← items parameter
  let body ← block p
  return .function parameters body

/-- A token that begins no expression. -/
def noOperand : m Expression := do
  let t ← peek
  next
  fail (.noExpressionAt t)

/-- An operand: what an expression begins with. -/
def operand (p : Parts m) : m Expression := do
  match ← peek with
  | .ident name =>
    next
    return .identifier name
  | .int digits => called .integer (integer digits)
  | .keyword .trueWord =>
    next
    return .boolean true
  | .keyword .falseWord =>
    next
    return .boolean false
  | .keyword .ifWord => conditional p
  | .keyword .fnWord => function p
  | .symbol .bang => called .unary (unary p .not)
  | .symbol .minus => called .unary (unary p .negate)
  | .symbol .leftParen => grouped p
  | .symbol .leftBrace =>
    let body ← block p
    return .block body
  | _ => noOperand

/-! ### Operators and calls -/

/-- An operator behind its left operand, and the right operand. -/
def binary (p : Parts m) (op : BinaryOp) (left : Expression) : m Expression := do
  next
  let right ← p.expression op.level
  return .binary op left right

/-- The arguments of a call behind the function. -/
def call (p : Parts m) (callee : Expression) : m Expression := do
  next
  let arguments ← items (p.expression .lowest)
  return .call callee arguments

/-- What a continuation makes of the expression in front of it. -/
def continuation (p : Parts m) (left : Expression) : Continuation → m Expression
  | .operator op => called .binary (binary p op left)
  | .arguments => call p left

/-- Take in continuations above a level; `n` bounds their number. -/
def continued (p : Parts m) (level : Level) : Nat → Expression → m Expression
  | 0, left => return left
  | n + 1, left => do
    match Continuation.ofToken? (← peek) with
    | some k =>
      if level < k.level then
        let e ← continuation p left k
        continued p level n e
      else
        return left
    | none => return left

/-- An expression above a level. -/
def expression (p : Parts m) (level : Level) : m Expression :=
  called .expression do
    let left ← operand p
    -- each continuation takes a token at least
    continued p level (← unread) left

end Grammar

/-! ### The parsers for the parts -/

/-- The parsers for the parts of any text of `n` tokens. -/
def Parts.ofDepth {m : Type → Type} [Monad m] [Parsing m] : Nat → Parts m
  | 0 =>
    { expression := fun _ => Parsing.called .expression Grammar.noOperand
      block := Parsing.fail (.expected (.symbol .leftBrace) .endOfInput) }
  | n + 1 =>
    { expression := Grammar.expression (ofDepth n)
      block := Grammar.block (ofDepth n) }

end TreeWalk
