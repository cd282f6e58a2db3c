/-
# Parsers

A parser reads tokens at a *cursor* and ends with a result or an error, with the cursor where it
stopped, and with the calls that were made on the way.  An error keeps the cursor and the calls:
where reading stopped decides where it goes on, and the calls are listed in either case.

The tokens that are still to be read may run out.  From there on the end of input is read, as
often as one likes.

What a parser is made of are a few steps (`Parsing`): to look at the next token, to read it, to note
a call.  The grammar is written in these steps, so it may be read by whatever has them.
-/
import TreeWalk.Parse.Call
import TreeWalk.Parse.Error

namespace TreeWalk

/-- A place in a row of tokens. -/
structure Cursor where
  /-- The token read last. -/
  last : Token
  /-- The tokens still to be read. -/
  rest : List Token
  /-- The number of blocks that were entered and not left. -/
  depth : Nat
deriving DecidableEq, Repr

namespace Cursor

/-- The place in front of a row of tokens. -/
def start (tokens : List Token) : Cursor :=
  ⟨.endOfInput, tokens, 0⟩

/-- The token to be read next. -/
def peek (c : Cursor) : Token :=
  c.rest.headD .endOfInput

/-- The place behind the next token. -/
def next (c : Cursor) : Cursor :=
  { c with last := c.peek, rest := c.rest.tail }

@[simp] theorem peek_cons (last t : Token) (ts : List Token) (d : Nat) :
    peek ⟨last, t :: ts, d⟩ = t := rfl

@[simp] theorem peek_nil (last : Token) (d : Nat) : peek ⟨last, [], d⟩ = .endOfInput := rfl

@[simp] theorem last_next (c : Cursor) : c.next.last = c.peek := rfl

@[simp] theorem rest_next (c : Cursor) : c.next.rest = c.rest.tail := rfl

@[simp] theorem depth_next (c : Cursor) : c.next.depth = c.depth := rfl

end Cursor

/-- The steps that parsers are made of. -/
class Parsing (m : Type → Type) where
  /-- The next token, which stays unread. -/
  peek : m Token
  /-- Read the next token. -/
  next : m Unit
  /-- The number of tokens still to be read. -/
  unread : m Nat
  /-- Enter a block. -/
  enter : m Unit
  /-- Leave a block. -/
  leave : m Unit
  /-- Give up. -/
  fail {α : Type} (e : ParseError) : m α
  /-- Note a call of a routine around what is parsed. -/
  called {α : Type} (routine : Routine) (p : m α) : m α

/-- How a parser ends. -/
structure Outcome (α : Type) where
  /-- What was read, or why nothing was. -/
  result : Except ParseError α
  /-- Where reading stopped. -/
  cursor : Cursor
  /-- The calls made on the way. -/
  calls : List Call

/-- A parser for things of type `α`. -/
def Parser (α : Type) : Type :=
  Cursor → Outcome α

namespace Parser

export Parsing (peek next unread enter leave fail called)

instance : Monad Parser where
  pure a := fun c => ⟨.ok a, c, []⟩
  bind p f := fun c =>
    match p c with
    | ⟨.error e, c, calls⟩ => ⟨.error e, c, calls⟩
    | ⟨.ok a, c, calls⟩ =>
      let o := f a c
      ⟨o.result, o.cursor, calls ++ o.calls⟩

instance : Parsing Parser where
  peek := fun c => ⟨.ok c.peek, c, []⟩
  next := fun c => ⟨.ok (), c.next, []⟩
  unread := fun c => ⟨.ok c.rest.length, c, []⟩
  enter := fun c => ⟨.ok (), { c with depth := c.depth + 1 }, []⟩
  leave := fun c => ⟨.ok (), { c with depth := c.depth - 1 }, []⟩
  fail e := fun c => ⟨.error e, c, []⟩
  called routine p := fun c =>
    let o := p c
    { o with calls := [.mk routine c.peek o.calls] }

section Steps

variable {α β : Type}

/-! ### What a step does -/

@[simp] theorem pure_apply (a : α) (c : Cursor) : (pure a : Parser α) c = ⟨.ok a, c, []⟩ := rfl

theorem bind_of_ok {p : Parser α} {f : α → Parser β} {c c' : Cursor} {a : α} {calls : List Call}
    (h : p c = ⟨.ok a, c', calls⟩) :
    (p >>= f) c = ⟨(f a c').result, (f a c').cursor, calls ++ (f a c').calls⟩ := by
  show (match p c with
    | ⟨.error e, c, calls⟩ => (⟨.error e, c, calls⟩ : Outcome β)
    | ⟨.ok a, c, calls⟩ => ⟨(f a c).result, (f a c).cursor, calls ++ (f a c).calls⟩) = _
  rw [h]

theorem bind_of_error {p : Parser α} {f : α → Parser β} {c c' : Cursor} {e : ParseError}
    {calls : List Call} (h : p c = ⟨.error e, c', calls⟩) :
    (p >>= f) c = ⟨.error e, c', calls⟩ := by
  show (match p c with
    | ⟨.error e, c, calls⟩ => (⟨.error e, c, calls⟩ : Outcome β)
    | ⟨.ok a, c, calls⟩ => ⟨(f a c).result, (f a c).cursor, calls ++ (f a c).calls⟩) = _
  rw [h]

@[simp] theorem peek_bind (f : Token → Parser β) (c : Cursor) :
    (peek >>= f) c = f c.peek c := rfl

@[simp] theorem next_apply (c : Cursor) : (next : Parser Unit) c = ⟨.ok (), c.next, []⟩ := rfl

@[simp] theorem next_bind (f : Unit → Parser β) (c : Cursor) :
    (next >>= f) c = f () c.next := rfl

@[simp] theorem unread_bind (f : Nat → Parser β) (c : Cursor) :
    (unread >>= f) c = f c.rest.length c := rfl

@[simp] theorem enter_bind (f : Unit → Parser β) (c : Cursor) :
    (enter >>= f) c = f () { c with depth := c.depth + 1 } := rfl

@[simp] theorem leave_bind (f : Unit → Parser β) (c : Cursor) :
    (leave >>= f) c = f () { c with depth := c.depth - 1 } := rfl

@[simp] theorem fail_apply (e : ParseError) (c : Cursor) :
    (fail e : Parser α) c = ⟨.error e, c, []⟩ := rfl

@[simp] theorem called_apply (routine : Routine) (p : Parser α) (c : Cursor) :
    called routine p c =
      ⟨(p c).result, (p c).cursor, [.mk routine c.peek (p c).calls]⟩ := rfl

@[simp] theorem fail_bind (e : ParseError) (f : α → Parser β) (c : Cursor) :
    (fail e >>= f) c = ⟨.error e, c, []⟩ := rfl

end Steps

/-! ### Small parsers -/

section Small

variable {m : Type → Type} [Monad m] [Parsing m] {α : Type}

/-- Read the token `t`, which has to stand here.  Another token stays unread. -/
def expect (t : Token) : m Unit := do
  let found ← peek
  if found = t then
    next
  else
    fail (.expected t found)

/-- Read the token `t` if it stands here. -/
def skip (t : Token) : m Unit := do
  if (← peek) = t then
    next

/-- The items behind the first one of a list, each with a comma in front; `n` bounds their
number. -/
def moreItems (item : m α) : Nat → m (List α)
  | 0 => pure []
  | n + 1 => do
    if (← peek) = .symbol .comma then
      next
      let a ← item
      let as ← moreItems item n
      return a :: as
    else
      return []

/-- The items of a list in parentheses, with commas between them.  The parenthesis that opens
the list was read before. -/
def items (item : m α) : m (List α) := do
  if (← peek) = .symbol .rightParen then
    next
    return []
  else
    let first ← item
    -- a further item takes a token at least
    let more ← moreItems item (← unread)
    expect (.symbol .rightParen)
    return first :: more

end Small

end Parser
end TreeWalk
