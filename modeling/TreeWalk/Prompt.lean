/-
# The prompt

The prompt reads its input line by line and answers each line before it reads the next one.  A
line is a program of its own, read in a session of its own; in echo mode the program is shown, in
eval mode its value.  The prompt ends with the input or with the line `exit`, and it breaks off at a
line that is no text.
-/
import TreeWalk.Eval
import TreeWalk.Parse.Session
import TreeWalk.Text.Blank
import TreeWalk.Text.Line

namespace TreeWalk
namespace Prompt

/-- What the prompt shows of a program. -/
inductive Mode where
  /-- The program itself. -/
  | echo
  /-- The value of the program. -/
  | eval
deriving DecidableEq, Repr

/-- The text of a mode. -/
def Mode.text : Mode → String
  | echo => "echo mode"
  | eval => "eval mode"

/-! ### The texts of the prompt -/

/-- What invites a line. -/
def invitation : String := ">> "

/-- The line that ends a session. -/
def exitLine : List Char := "exit".toList

/-- The last words. -/
def farewell : String := "Bye!\n"

/-- The rows above a list of errors: a picture and two headings. -/
def headings : List String :=
  ["            __,__",
   "   .--.  .-\"     \"-.  .--.",
   "  / .. \\/  .-. .-.  \\/ .. \\",
   " | |  '|  /   Y   \\  |'  | |",
   " | \\   \\  \\ 0 | 0 /  /   / |",
   "  \\ '- ,\\.-\"\"\"\"\"\"\"-./, -' /",
   "   ''-' /_   ^ ^   _\\ '-''",
   "       |  \\._   _./  |",
   "       \\   \\ '~' /   /",
   "        '._ '-=-' _.'",
   "           '~---~'",
   "Woops! We ran into some monkey business here!",
   " parser errors:"]

/-- The answer to refused statements. -/
def refusal (errors : List ParseError) : String :=
  Line.ended (headings ++ errors.map fun e => "\t" ++ e.message)

/-- The answer to a program. -/
def answer (mode : Mode) (p : Program) : String :=
  match mode with
  | .echo => Program.render p ++ "\n"
  | .eval =>
    match Program.eval p with
    | .ok (some o) => o.value.render ++ "\n"
    | .ok none => ""
    | .error fault => "ERROR: " ++ fault.message ++ "\n"

/-- The answer to what was read of a line: a program, and why statements of it were refused. -/
def reply (mode : Mode) (p : Program) (errors : List ParseError) : String :=
  if errors = [] then answer mode p else refusal errors

/-! ### Sessions -/

/-- What a line does. -/
inductive Turn where
  /-- It is answered, and the session goes on.  The tracer wrote some lines. -/
  | answered (text : String) (listing : List String)
  /-- It ends the session. -/
  | exit
  /-- It is no text. -/
  | unreadable

/-- The turn that a line of input takes, with tracing or without. -/
def turn (mode : Mode) (line : List UInt8) (trace : Bool) : Turn :=
  match Line.decode? line with
  | none => .unreadable
  | some text =>
    if trimmed text.toList = exitLine then
      .exit
    else
      let (p, s) := ((Session.ofText text.toList).trace trace).readProgram
      .answered (reply mode p s.errors) s.takeListing.1

/-- What a session leaves behind. -/
structure Transcript where
  /-- All that was written. -/
  out : String
  /-- The lines of the tracers. -/
  listing : List String
  /-- Did every line turn out to be a text? -/
  readable : Bool

/-- A session over lines of input. -/
def sessionOf (mode : Mode) (trace : Bool) : List (List UInt8) → Transcript
  | [] => ⟨invitation ++ farewell, [], true⟩
  | line :: lines =>
    match turn mode line trace with
    | .answered text listing =>
      let t := sessionOf mode trace lines
      ⟨invitation ++ text ++ t.out, listing ++ t.listing, t.readable⟩
    | .exit => ⟨invitation ++ farewell, [], true⟩
    | .unreadable => ⟨invitation, [], false⟩

/-- A session over some input. -/
def session (mode : Mode) (input : List UInt8) (trace : Bool := false) : Transcript :=
  sessionOf mode trace (Line.split input)

end Prompt
end TreeWalk
