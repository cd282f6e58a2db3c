/-
# The calls of a reading

While a program is read, the parsing routines call one another.  A *call* notes which routine was
entered, the token it began at, and the calls made inside it; so the calls of a reading form a
forest.  It is shown as text with two lines for each call, one where it begins and one where it
ends, indented by the number of calls around it.
-/
import TreeWalk.Text.Quoted
import TreeWalk.Token

namespace TreeWalk

/-- The parsing routines whose calls are noted. -/
inductive Routine where
  | statement | expressionStatement | expression | unary | binary | integer
deriving DecidableEq, Repr

/-- The name of a routine in a listing of calls. -/
def Routine.name : Routine → String
  | statement => "parse_statement"
  | expressionStatement => "parse_expression_statement"
  | expression => "parse_expression"
  | unary => "parse_unary_expression"
  | binary => "parse_binary_expression"
  | integer => "parse_integer_literal"

/-- What is said where a call of a routine begins, at a token. -/
def Routine.beginText (routine : Routine) (token : Token) : String :=
  "BEGIN " ++ routine.name ++ " (" ++ quoted token.literal ++ ")"

/-- What is said where a call of a routine ends. -/
def Routine.endText (routine : Routine) : String :=
  "END " ++ routine.name

/-- A call of a routine: the token it began at and the calls inside it. -/
inductive Call where
  | mk (routine : Routine) (token : Token) (inner : List Call)

namespace Call

/-- A line of a listing, with a tabulator for each call around it. -/
def line (depth : Nat) (text : String) : String :=
  String.ofList (List.replicate depth '\t') ++ text

mutual

/-- The lines of a call that `depth` calls stand around. -/
def lines (depth : Nat) : Call → List String
  | mk routine token inner =>
    line depth (routine.beginText token) :: linesOfEach (depth + 1) inner ++
      [line depth routine.endText]

/-- The lines of some calls, one after the other. -/
def linesOfEach (depth : Nat) : List Call → List String
  | [] => []
  | call :: calls => lines depth call ++ linesOfEach depth calls

end

/-- The listing of a whole reading. -/
def listing (calls : List Call) : List String :=
  linesOfEach 0 calls

theorem linesOfEach_append (depth : Nat) (as bs : List Call) :
    linesOfEach depth (as ++ bs) = linesOfEach depth as ++ linesOfEach depth bs := by
  induction as with
  | nil => rfl
  | cons a as ih => simp [linesOfEach, ih]

end Call
end TreeWalk
