/-
# The program

The outer layer of the command: it takes arguments, files and input from the system, and hands
over what is to be written.  The prompt writes its answer to a line before it waits for the next
one, so its lines are read and answered one at a time.
-/
import TreeWalk.Command

namespace TreeWalk
namespace Command

/-- Write what the command ends with. -/
def Exit.finish (e : Exit) : IO UInt32 := do
  IO.print e.out
  IO.eprint e.err
  return e.code.toUInt32

/-- The bytes of a file, if it can be read. -/
def readFile? (name : String) : IO (Option (List UInt8)) := do
  try
    return some (← IO.FS.readBinFile name).toList
  catch _ =>
    return none

/-- The rest of a line of input, with the line feed that ends it; `line` holds what was read of
it so far, the last byte first. -/
partial def readLine (input : IO.FS.Stream) (line : List UInt8) : IO (List UInt8) := do
  match (← input.read 1).toList with
  | [] => return line.reverse
  | b :: _ => if b = Line.feed then return (b :: line).reverse else readLine input (b :: line)

/-- A session of the prompt with the system's input and output. -/
partial def Options.converseLive (o : Options) (input output : IO.FS.Stream) : IO UInt32 := do
  output.putStr Prompt.invitation
  output.flush
  let line ← readLine input []
  if line.isEmpty then
    output.putStr Prompt.farewell
    return 0
  match Prompt.turn o.mode line o.trace with
  | .answered text listing =>
    IO.eprint (Line.ended listing)
    output.putStr text
    o.converseLive input output
  | .exit =>
    output.putStr Prompt.farewell
    return 0
  | .unreadable =>
    IO.eprintln unreadableText
    return 1

end Command
end TreeWalk

open TreeWalk Command in
/-- The program. -/
def main (arguments : List String) : IO UInt32 := do
  match Request.ofArguments? arguments with
  | some (.start o) =>
    match o.file, o.source with
    | some name, _ => (o.processFile name (← readFile? name)).finish
    | none, some source => (o.process source).finish
    | none, none =>
      IO.print (greeting o.mode)
      o.converseLive (← IO.getStdin) (← IO.getStdout)
  | request? => (fulfil (fun _ => none) [] request?).finish
