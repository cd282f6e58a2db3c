/-
# The command

The command evaluates a script or a source text, lists its tokens, or starts the prompt.  What it
does is a function of its arguments, of the files it may read and of its input (`execute`); it
ends with an exit code and with what it wrote.

All that counts of the arguments is the request that they make.  So what the command does may be
asked for any reader of arguments (`executeWith`).
-/
import TreeWalk.Command.Arguments
import TreeWalk.Prompt
import TreeWalk.Run

namespace TreeWalk
namespace Command

/-- How the command ends. -/
structure Exit where
  /-- The exit code: 0 for success, 1 for failure, 2 for wrong arguments. -/
  code : Nat
  /-- What was written to the standard output. -/
  out : String
  /-- What was written to the standard error. -/
  err : String
deriving DecidableEq, Repr

/-! ### The texts of the command -/

/-- The answer to a request for the version. -/
def versionText : String := "monkey 0.1.0\n"

/-- The answer to a request for help. -/
def helpText : String :=
  Line.ended
    ["Tokenizer, Pratt parser and tree-walking evaluator for the Monkey language",
     "",
     "Usage: monkey [OPTIONS] [FILE]",
     "",
     "Arguments:",
     "  [FILE]  Script file to evaluate",
     "",
     "Options:",
     "  -e, --expr <EXPR>  Evaluate a source string instead of a file",
     "      --eval         Print evaluated values in the prompt instead of the parsed program",
     "      --tokens       Print the token stream instead of evaluating",
     "      --trace        Trace every parse routine to stderr",
     "  -h, --help         Print help",
     "  -V, --version      Print version"]

/-- The first words of the prompt. -/
def greeting (mode : Prompt.Mode) : String :=
  Line.ended
    ["Hello! This is the Monkey programming language in " ++ mode.text ++ "!",
     "Feel free to type in commands"]

/-- What wrong arguments are answered with. -/
def usageText : String := "Usage: monkey [OPTIONS] [FILE]\n"

/-! ### Source texts -/

/-- A token in a listing: its kind, at least eight characters wide, and its literal. -/
def tokenLine (t : Token) : String :=
  String.ofList (t.kind.toList ++ List.replicate (8 - t.kind.length) ' ') ++ " " ++
    quoted t.literal

/-- List the tokens of a source text. -/
def listTokens (source : String) : Exit :=
  ⟨0, Line.ended ((Token.ofSource source).map tokenLine ++ ["EOF"]), ""⟩

/-- Evaluate a source text, with tracing or without. -/
def evaluate (trace : Bool) (source : String) : Exit :=
  let (p, s) := ((Session.ofText source.toList).trace trace).readProgram
  let listing := Line.ended s.takeListing.1
  if s.errors = [] then
    match Program.eval p with
    | .ok (some o) => ⟨0, o.value.render ++ "\n", listing⟩
    | .ok none => ⟨0, "", listing⟩
    | .error fault => ⟨1, "", listing ++ (RunError.faulty fault).message ++ "\n"⟩
  else
    ⟨1, "", listing ++ (RunError.refused s.errors).message ++ "\n"⟩

/-- Do what the options ask for with a source text. -/
def Options.process (o : Options) (source : String) : Exit :=
  if o.tokens then listTokens source else evaluate o.trace source

/-- Do what the options ask for with a file: its bytes, if it can be read. -/
def Options.processFile (o : Options) (name : String) (bytes? : Option (List UInt8)) : Exit :=
  match bytes?.bind Line.decode? with
  | some source => o.process source
  | none => ⟨1, "", "reading " ++ name ++ " failed\n"⟩

/-! ### The prompt -/

/-- The mode of the prompt. -/
def Options.mode (o : Options) : Prompt.Mode :=
  if o.eval then .eval else .echo

/-- What breaks off a session. -/
def unreadableText : String := "stream did not contain valid UTF-8"

/-- A session of the prompt over some input. -/
def Options.converse (o : Options) (input : List UInt8) : Exit :=
  let t := Prompt.session o.mode input o.trace
  let listing := Line.ended t.listing
  if t.readable then
    ⟨0, greeting o.mode ++ t.out, listing⟩
  else
    ⟨1, greeting o.mode ++ t.out, listing ++ unreadableText ++ "\n"⟩

/-! ### The whole command -/

/-- What the command does about a request, if its arguments make one.  `files` gives the bytes of
the files that can be read. -/
def fulfil (files : String → Option (List UInt8)) (input : List UInt8) : Option Request → Exit
  | none => ⟨2, "", usageText⟩
  | some .help => ⟨0, helpText, ""⟩
  | some .version => ⟨0, versionText, ""⟩
  | some (.start o) =>
    match o.file, o.source with
    | some name, _ => o.processFile name (files name)
    | none, some source => o.process source
    | none, none => o.converse input

/-- What the command does, if its arguments are read by `read?`. -/
def executeWith (read? : List String → Option Request) (arguments : List String)
    (files : String → Option (List UInt8)) (input : List UInt8) : Exit :=
  fulfil files input (read? arguments)

/-- What the command does. -/
def execute (arguments : List String) (files : String → Option (List UInt8))
    (input : List UInt8) : Exit :=
  executeWith Request.ofArguments? arguments files input

end Command
end TreeWalk
