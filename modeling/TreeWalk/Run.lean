/-
# Running a source text

A text is parsed as a whole before anything of it is evaluated, and one refused statement keeps
all of it from being evaluated.
-/
import TreeWalk.Eval
import TreeWalk.Parse.Program

namespace TreeWalk

/-- Why a text has no value. -/
inductive RunError where
  /-- Statements were refused. -/
  | refused (errors : List ParseError)
  /-- The evaluation met a fault. -/
  | faulty (fault : Fault)
deriving DecidableEq

/-- The text of an error: a line for each refused statement, or the fault. -/
def RunError.message : RunError → String
  | refused errors =>
    "parser errors:\n" ++ String.intercalate "\n" (errors.map fun e => "\t" ++ e.message)
  | faulty fault => "evaluation failed: " ++ fault.message

/-- Evaluate what was read, if nothing of it was refused. -/
def Reading.run (r : Reading) : Except RunError (Option Object) :=
  if r.errors = [] then
    (Program.eval r.program).mapError .faulty
  else
    .error (.refused r.errors)

/-- Parse and evaluate a source text. -/
def run (source : String) : Except RunError (Option Object) :=
  (Reading.ofText source.toList).run

end TreeWalk
