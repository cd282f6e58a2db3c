/-
# Parsers with a tracer

A tracer writes a line where a routine begins and a line where it ends.  All that it knows of the
routines around is their number: a routine that begins adds one to it, a routine that ends takes one
off.  A tracer that is switched off does nothing.

A traced parser takes its tracer along as it takes its cursor, and an error keeps both.  So it reads
the grammar with each routine framed by the two lines, however the routine ends.
-/
import TreeWalk.Parse.Grammar

namespace TreeWalk

/-! ### The tracer -/

/-- A tracer of routines. -/
structure Tracer where
  /-- Is it switched on? -/
  enabled : Bool
  /-- The number of routines that began and did not end. -/
  level : Nat
  /-- The lines that were written and not taken. -/
  lines : Array String
deriving DecidableEq, Repr

namespace Tracer

/-- A tracer that was told of nothing yet. -/
def new (enabled : Bool) : Tracer :=
  ⟨enabled, 0, #[]⟩

/-- Write a text, with a tabulator for each routine around the one that began last. -/
def push (t : Tracer) (text : String) : Tracer :=
  { t with lines := t.lines.push (Call.line (t.level - 1) text) }

/-- A routine begins at a token. -/
def begins (t : Tracer) (routine : Routine) (token : Token) : Tracer :=
  if t.enabled then
    { t with level := t.level + 1 }.push (routine.beginText token)
  else
    t

/-- A routine ends. -/
def ends (t : Tracer) (routine : Routine) : Tracer :=
  if t.enabled then
    let t := t.push routine.endText
    { t with level := t.level - 1 }
  else
    t

/-- Take the lines. -/
def take (t : Tracer) : List String × Tracer :=
  (t.lines.toList, { t with lines := #[] })

end Tracer

/-! ### Parsers that have one -/

/-- What a traced parser takes along. -/
structure Traced.State where
  /-- Where it stands. -/
  cursor : Cursor
  /-- Its tracer. -/
  tracer : Tracer

/-- A traced parser for things of type `α`. -/
def Traced : Type → Type :=
  ExceptT ParseError (StateM Traced.State)

namespace Traced

instance : Monad Traced :=
  inferInstanceAs (Monad (ExceptT ParseError (StateM State)))

/-- Run a traced parser. -/
def run {α : Type} (p : Traced α) (s : State) : Except ParseError α × State :=
  ExceptT.run p s

instance : Parsing Traced where
  peek := fun s => (.ok s.cursor.peek, s)
  next := fun s => (.ok (), { s with cursor := s.cursor.next })
  unread := fun s => (.ok s.cursor.rest.length, s)
  enter := fun s => (.ok (), { s with cursor.depth := s.cursor.depth + 1 })
  leave := fun s => (.ok (), { s with cursor.depth := s.cursor.depth - 1 })
  fail e := fun s => (.error e, s)
  called routine p := fun s =>
    let (result, s) := run p { s with tracer := s.tracer.begins routine s.cursor.peek }
    -- the routine ends in either case
    (result, { s with tracer := s.tracer.ends routine })

section Steps

variable {α β : Type} {p : Traced α} {f : α → Traced β} {s s' : State}

theorem run_bind_of_ok {a : α} (h : p.run s = (.ok a, s')) : (p >>= f).run s = (f a).run s' := by
  show ExceptT.bindCont f (p.run s).1 (p.run s).2 = _
  rw [h]
  rfl

theorem run_bind_of_error {e : ParseError} (h : p.run s = (.error e, s')) :
    (p >>= f).run s = (.error e, s') := by
  show ExceptT.bindCont f (p.run s).1 (p.run s).2 = _
  rw [h]
  rfl

theorem run_called (s : State) {routine : Routine} {result : Except ParseError α}
    (h : p.run { s with tracer := s.tracer.begins routine s.cursor.peek } = (result, s')) :
    run (Parsing.called routine p) s =
      (result, { s' with tracer := s'.tracer.ends routine }) := by
  show ((run p _).1, State.mk (run p _).2.cursor ((run p _).2.tracer.ends routine)) = _
  rw [h]

end Steps

end Traced
end TreeWalk
