/-
# What can be wrong with a program text

A statement is refused for one of three causes: a token stands where another one has to stand, an
expression has to begin with a token that begins none, or a number is too large for an integer.
-/
import TreeWalk.Text.Quoted
import TreeWalk.Token

namespace TreeWalk

/-- Why a statement is refused. -/
inductive ParseError where
  /-- The token `found` stands where `wanted` has to stand. -/
  | expected (wanted found : Token)
  /-- No expression begins with this token. -/
  | noExpressionAt (token : Token)
  /-- The number with these digits is too large. -/
  | integerTooLarge (digits : String)
deriving DecidableEq, Repr

/-- The text of an error.  Tokens are named by their kind, digits are quoted. -/
def ParseError.message : ParseError → String
  | expected wanted found =>
    "expected next token to be " ++ wanted.kind ++ ", got " ++ found.kind ++ " instead"
  | noExpressionAt t => "no prefix parse function for " ++ t.kind ++ " found"
  | integerTooLarge digits => "could not parse " ++ quoted digits ++ " as integer"

end TreeWalk
