/-
# Arguments of the command line

The arguments are read from the left, and the first one that is wrong makes all of them wrong.  A
request for help or for the version ends the reading as soon as it is met.  Every option may be
given once.

The option that takes a value has it attached, behind `=` in the long form and with or without
`=` in the short one, or as the argument behind it; a value that stands apart does not begin with
a dash, unless it is only a dash.  Behind `--` there are no options any more.

This is the reader of arguments that the command is run with; what the command does with a request
does not depend on how it was read.
-/
namespace TreeWalk
namespace Command

/-- What the options ask for. -/
structure Options where
  /-- The script to evaluate. -/
  file : Option String := none
  /-- The source text to evaluate. -/
  source : Option String := none
  /-- Does the prompt show values? -/
  eval : Bool := false
  /-- Are tokens listed instead of evaluating? -/
  tokens : Bool := false
  /-- Are calls listed? -/
  trace : Bool := false
deriving DecidableEq, Repr

/-- What the arguments ask for. -/
inductive Request where
  | help
  | version
  | start (options : Options)
deriving DecidableEq, Repr

namespace Options

/-! ### One argument more -/

/-- With a script, of which there may be one, and whose name is not empty. -/
def withFile? (o : Options) (name : String) : Option Options :=
  if o.file = none ∧ name ≠ "" then some { o with file := some name } else none

/-- With a source text, of which there may be one. -/
def withSource? (o : Options) (text : String) : Option Options :=
  if o.source = none then some { o with source := some text } else none

/-- With the option that shows values, once. -/
def withEval? (o : Options) : Option Options :=
  if o.eval then none else some { o with eval := true }

/-- With the option that lists tokens, once. -/
def withTokens? (o : Options) : Option Options :=
  if o.tokens then none else some { o with tokens := true }

/-- With the option that lists calls, once. -/
def withTrace? (o : Options) : Option Options :=
  if o.trace then none else some { o with trace := true }

/-- The request of options that are complete: a script and a source text exclude each other. -/
def request? (o : Options) : Option Request :=
  if o.file ≠ none ∧ o.source ≠ none then none else some (.start o)

end Options

/-! ### What an argument is -/

/-- What a single argument says. -/
inductive Argument where
  /-- It ends the options. -/
  | endOfOptions
  | help
  | version
  | eval
  | tokens
  | trace
  /-- It holds a source text. -/
  | source (text : String)
  /-- It announces a source text in the next argument. -/
  | sourceFollows
  /-- It is no option. -/
  | plain (text : String)
  /-- It is an option that does not exist, or a value where none may be. -/
  | unknown
deriving DecidableEq, Repr

/-- What an argument of the long form says, without its two dashes. -/
def Argument.ofLong (body : List Char) : Argument :=
  match String.ofList (body.takeWhile (· ≠ '=')), body.dropWhile (· ≠ '=') with
  | "", [] => endOfOptions
  | "help", [] => help
  | "version", [] => version
  | "eval", [] => eval
  | "tokens", [] => tokens
  | "trace", [] => trace
  | "expr", [] => sourceFollows
  | "expr", _ :: text => source (String.ofList text)
  | _, _ => unknown

/-- What an argument of the short form says, without its dash. -/
def Argument.ofShort : List Char → Argument
  | 'h' :: _ => help
  | 'V' :: _ => version
  | ['e'] => sourceFollows
  | 'e' :: '=' :: text => source (String.ofList text)
  | 'e' :: text => source (String.ofList text)
  | _ => unknown

/-- What an argument says. -/
def Argument.ofText (text : String) : Argument :=
  match text.toList with
  | '-' :: '-' :: body => ofLong body
  | '-' :: c :: body => ofShort (c :: body)
  | _ => plain text

/-- The text of an argument that stands apart as the value of the option before it. -/
def Argument.value? : Argument → Option String
  | plain text => some text
  | _ => none

/-! ### All arguments -/

/-- Read the arguments behind the end of the options. -/
def readPlain (o : Options) : List String → Option Request
  | [] => o.request?
  | text :: rest =>
    match o.withFile? text with
    | some o => readPlain o rest
    | none => none

/-- Read arguments behind those that gave the options `o`. -/
def readFrom (o : Options) : List String → Option Request
  | [] => o.request?
  | text :: rest =>
    match Argument.ofText text with
    | .endOfOptions => readPlain o rest
    | .help => some .help
    | .version => some .version
    | .eval => o.withEval?.bind fun o => readFrom o rest
    | .tokens => o.withTokens?.bind fun o => readFrom o rest
    | .trace => o.withTrace?.bind fun o => readFrom o rest
    | .source value => (o.withSource? value).bind fun o => readFrom o rest
    | .sourceFollows =>
      match rest with
      | [] => none
      | next :: rest =>
        (Argument.ofText next).value?.bind fun value =>
          (o.withSource? value).bind fun o => readFrom o rest
    | .plain name => (o.withFile? name).bind fun o => readFrom o rest
    | .unknown => none

/-- The request that the arguments make, if they are right. -/
def Request.ofArguments? (arguments : List String) : Option Request :=
  readFrom {} arguments

end Command
end TreeWalk
