/-
# Reading in sessions

A session reads a program from a row of tokens, once or again, with traced parsers.  Its errors pile
up over the readings.  While it traces, it keeps the lines of its tracer until they are taken;
switching tracing on or off puts a new tracer in the place of the old one.
-/
import TreeWalk.Parse.Program
import TreeWalk.Parse.Traced

namespace TreeWalk

/-- The state of a session. -/
structure Session where
  /-- Where reading goes on. -/
  cursor : Cursor
  /-- The errors of all readings so far. -/
  errors : List ParseError
  /-- What the parsing routines are traced by. -/
  tracer : Tracer

namespace Session

/-- A session over a text, without tracing. -/
def ofText (text : List Char) : Session :=
  ⟨.start (Token.stream text), [], .new false⟩

/-- The same session with tracing switched on or off. -/
def trace (s : Session) (on : Bool) : Session :=
  { s with tracer := .new on }

/-- Read statements up to an end of input; `n` bounds their number.  The error of a refused
statement is kept. -/
def readFrom (p : Parts Traced) : Nat → Session → Program × Session
  | 0, s => ([], s)
  | n + 1, s =>
    if s.cursor.peek = .endOfInput then
      ([], s)
    else
      match (Grammar.statement p).run ⟨s.cursor, s.tracer⟩ with
      | (.ok a, t) =>
        let (as, s) := readFrom p n { s with cursor := t.cursor, tracer := t.tracer }
        (a :: as, s)
      | (.error e, t) => readFrom p n ⟨t.cursor.recover, s.errors ++ [e], t.tracer⟩

/-- Read a program from where the session stands. -/
def readProgram (s : Session) : Program × Session :=
  -- each statement takes a token at least
  readFrom (.ofDepth s.cursor.rest.length) s.cursor.rest.length s

/-- The texts of the errors so far. -/
def messages (s : Session) : List String :=
  s.errors.map ParseError.message

/-- Take the lines of the tracer. -/
def takeListing (s : Session) : List String × Session :=
  let (lines, tracer) := s.tracer.take
  (lines, { s with tracer })

end Session
end TreeWalk
