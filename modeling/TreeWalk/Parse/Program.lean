/-
# Programs

A program is read statement by statement.  A statement that is refused leaves an error behind,
and reading goes on behind it (`Cursor.recover`): from the token read last, up to the end of the
input, to a semicolon outside of every block, or to the brace that closes the last block which
the statement had open.

Reading ends before an end of input that stands where a statement could begin.
-/
import TreeWalk.Parse.Grammar
import TreeWalk.Token.Stream

namespace TreeWalk

/-! ### Going on behind an error -/

/-- The number of open blocks behind a token, from the number in front of it. -/
def Token.depthBehind (depth : Nat) : Token → Nat
  | .symbol .leftBrace => depth + 1
  | .symbol .rightBrace => depth - 1
  | _ => depth

/-- Does a refused statement end with a token, with `depth` blocks open behind it? -/
def Token.endsRefused (depth : Nat) : Token → Bool
  | .endOfInput => true
  | .symbol .semicolon => depth = 0
  | .symbol .rightBrace => depth = 0
  | _ => false

/-- The place behind a refused statement.  `last` is a token of it, with `rest` behind and
`depth` blocks open in front.  A semicolon behind a closing brace belongs to the statement. -/
def Cursor.behind (depth : Nat) (last : Token) (rest : List Token) : Cursor :=
  let opened := last.depthBehind depth
  if last.endsRefused opened then
    if last = .symbol .rightBrace ∧ rest.head? = some (.symbol .semicolon) then
      ⟨.symbol .semicolon, rest.tail, 0⟩
    else
      ⟨last, rest, 0⟩
  else
    match rest with
    | [] => ⟨.endOfInput, [], 0⟩
    | t :: rest => behind opened t rest

/-- The place behind the statement that was refused at a cursor. -/
def Cursor.recover (c : Cursor) : Cursor :=
  behind c.depth c.last c.rest

/-! ### Statement after statement -/

/-- What reading a program gives. -/
structure Reading where
  /-- The statements that were read. -/
  program : Program
  /-- Why the other statements were refused. -/
  errors : List ParseError
  /-- The calls made on the way. -/
  calls : List Call
  /-- Where reading stopped. -/
  cursor : Cursor

/-- Put a statement, or the error it was refused for, in front of a reading. -/
def Reading.cons (result : Except ParseError Statement) (calls : List Call) (r : Reading) :
    Reading :=
  match result with
  | .ok s => { r with program := s :: r.program, calls := calls ++ r.calls }
  | .error e => { r with errors := e :: r.errors, calls := calls ++ r.calls }

/-- Read statements up to an end of input; `n` bounds their number. -/
def Reading.from (p : Parts) : Nat → Cursor → Reading
  | 0, c => ⟨[], [], [], c⟩
  | n + 1, c =>
    if c.peek = .endOfInput then
      ⟨[], [], [], c⟩
    else
      let o := Grammar.statement p c
      let c := match o.result with
        | .ok _ => o.cursor
        | .error _ => o.cursor.recover
      .cons o.result o.calls (Reading.from p n c)

/-- The reading that begins at a cursor. -/
def Cursor.read (c : Cursor) : Reading :=
  -- each statement takes a token at least
  .from (.ofDepth c.rest.length) c.rest.length c

/-- The reading of a text. -/
def Reading.ofText (text : List Char) : Reading :=
  (Cursor.start (Token.stream text)).read

/-- The program of a source text, and why statements of it were refused.  With errors, the
program lacks the refused statements. -/
def parse (source : String) : Program × List ParseError :=
  let r := Reading.ofText source.toList
  (r.program, r.errors)

end TreeWalk
