/-
# What a tracer writes

The grammar is read by parsers that note their calls, and by traced parsers.  A traced parser does
the same as the parser that notes its calls, with the same result and at the same place, and its
tracer writes the lines of those calls: behind the calls, the level is what it was in front of them
(`Traced.Records`).  A tracer that is switched off writes nothing.

This is a property of each step, and it is kept by each way of putting steps together, whether they
succeed or fail.  Hence it holds of the routines of the grammar, one by one, of the parsers for the
parts (`Parts.records_ofDepth`), and of sessions (`Session.readProgram_eq`).
-/
import Mathlib.Tactic.Common
import TreeWalk.Parse.Session

namespace TreeWalk

/-! ### The lines of calls -/

namespace Tracer

/-- The tracer behind some calls. -/
def wrote (t : Tracer) (calls : List Call) : Tracer :=
  if t.enabled then
    { t with lines := t.lines ++ (Call.linesOfEach t.level calls).toArray }
  else
    t

lemma wrote_of_disabled {t : Tracer} (h : t.enabled = false) (calls : List Call) :
    t.wrote calls = t := by
  rw [wrote, h]
  rfl

lemma wrote_of_enabled {t : Tracer} (h : t.enabled = true) (calls : List Call) :
    t.wrote calls = { t with lines := t.lines ++ (Call.linesOfEach t.level calls).toArray } := by
  rw [wrote, if_pos h]

@[simp] lemma enabled_wrote (t : Tracer) (calls : List Call) :
    (t.wrote calls).enabled = t.enabled := by
  unfold wrote
  split <;> rfl

/-- Behind some calls the level is what it was in front of them. -/
@[simp] lemma level_wrote (t : Tracer) (calls : List Call) : (t.wrote calls).level = t.level := by
  unfold wrote
  split <;> rfl

@[simp] lemma wrote_nil (t : Tracer) : t.wrote [] = t := by
  simp [wrote, Call.linesOfEach]

lemma wrote_append (t : Tracer) (as bs : List Call) :
    t.wrote (as ++ bs) = (t.wrote as).wrote bs := by
  cases h : t.enabled with
  | false => rw [wrote_of_disabled h, wrote_of_disabled h, wrote_of_disabled h]
  | true =>
    have has : (t.wrote as).enabled = true := by rw [enabled_wrote, h]
    rw [wrote_of_enabled has, wrote_of_enabled h, wrote_of_enabled h, Call.linesOfEach_append]
    simp

/-- A routine that makes some calls is one call itself: what its end takes off the level is what its
beginning added. -/
lemma ends_wrote_begins (t : Tracer) (routine : Routine) (token : Token) (calls : List Call) :
    ((t.begins routine token).wrote calls).ends routine = t.wrote [.mk routine token calls] := by
  cases h : t.enabled with
  | false =>
    have hbegins : t.begins routine token = t := by simp [begins, h]
    rw [hbegins, wrote_of_disabled h, wrote_of_disabled h]
    simp [ends, h]
  | true =>
    have hbegins : t.begins routine token =
        ⟨true, t.level + 1, t.lines.push (Call.line t.level (routine.beginText token))⟩ := by
      simp [begins, push, h]
    rw [hbegins, wrote_of_enabled rfl, wrote_of_enabled h]
    simp [ends, push, h, Call.linesOfEach, Call.lines]

end Tracer

/-! ### Traced parsers -/

namespace Traced

open TreeWalk.Parser

variable {α β : Type}

/-- A traced parser ends as a parser does, and its tracer writes the calls of that parser. -/
def Records (p : Traced α) (q : Parser α) : Prop :=
  ∀ c t, p.run ⟨c, t⟩ = ((q c).result, ⟨(q c).cursor, t.wrote (q c).calls⟩)

namespace Records

lemma pure (a : α) : Records (Pure.pure a) (Pure.pure a) := by
  intro c t
  rw [pure_apply, Tracer.wrote_nil]
  rfl

lemma bind {p : Traced α} {q : Parser α} {f : α → Traced β} {g : α → Parser β} (h : Records p q)
    (hf : ∀ a, Records (f a) (g a)) : Records (p >>= f) (q >>= g) := by
  intro c t
  have hrun := h c t
  rcases hq : q c with ⟨e | a, c₁, calls⟩ <;> rw [hq] at hrun
  · -- what stands behind is not read, and the tracer is left as the error left it
    rw [bind_of_error hq]
    exact run_bind_of_error hrun
  · rw [bind_of_ok hq, Tracer.wrote_append]
    exact (run_bind_of_ok hrun).trans (hf a c₁ (t.wrote calls))

/-- A parser that makes no call leaves the tracer as it is. -/
lemma of_no_calls {p : Traced α} {q : Parser α} (hcalls : ∀ c, (q c).calls = [])
    (h : ∀ c t, p.run ⟨c, t⟩ = ((q c).result, ⟨(q c).cursor, t⟩)) : Records p q := by
  intro c t
  rw [hcalls, Tracer.wrote_nil, h]

lemma peek : Records Parsing.peek Parsing.peek :=
  of_no_calls (fun _ => rfl) fun _ _ => rfl

lemma next : Records Parsing.next Parsing.next :=
  of_no_calls (fun _ => rfl) fun _ _ => rfl

lemma unread : Records Parsing.unread Parsing.unread :=
  of_no_calls (fun _ => rfl) fun _ _ => rfl

lemma enter : Records Parsing.enter Parsing.enter :=
  of_no_calls (fun _ => rfl) fun _ _ => rfl

lemma leave : Records Parsing.leave Parsing.leave :=
  of_no_calls (fun _ => rfl) fun _ _ => rfl

lemma fail (e : ParseError) : Records (Parsing.fail e : Traced α) (Parsing.fail e) :=
  of_no_calls (fun _ => rfl) fun _ _ => rfl

/-- A routine writes its end whether it fails or not. -/
lemma called {p : Traced α} {q : Parser α} (h : Records p q) (routine : Routine) :
    Records (Parsing.called routine p) (Parsing.called routine q) := by
  intro c t
  rw [called_apply, ← Tracer.ends_wrote_begins]
  exact run_called ⟨c, t⟩ (h c (t.begins routine c.peek))

/-! ### Small parsers -/

lemma expect (t : Token) : Records (Parser.expect t) (Parser.expect t) := by
  refine .bind .peek fun found => ?_
  split
  · exact .next
  · exact .fail _

lemma skip (t : Token) : Records (Parser.skip t) (Parser.skip t) := by
  refine .bind .peek fun found => ?_
  split
  · exact .next
  · exact .pure _

section Lists

variable {item : Traced α} {item' : Parser α}

lemma moreItems (h : Records item item') (n : Nat) :
    Records (Parser.moreItems item n) (Parser.moreItems item' n) := by
  induction n with
  | zero => exact .pure []
  | succ n ih =>
    refine .bind .peek fun found => ?_
    split
    · exact .bind .next fun _ => h.bind fun _ => ih.bind fun _ => .pure _
    · exact .pure []

lemma items (h : Records item item') : Records (Parser.items item) (Parser.items item') := by
  refine .bind .peek fun found => ?_
  split
  · exact .bind .next fun _ => .pure []
  · exact h.bind fun _ => .bind .unread fun n => (h.moreItems n).bind fun _ =>
      .bind (.expect _) fun _ => .pure _

end Lists

end Records

end Traced

/-! ### The routines of the grammar -/

/-- Traced parsers for the parts of a construct record what parsers for them do. -/
structure Parts.Records (p : Parts Traced) (q : Parts) : Prop where
  expression : ∀ level, Traced.Records (p.expression level) (q.expression level)
  block : Traced.Records p.block q.block

namespace Grammar

open TreeWalk.Traced

variable {p : Parts Traced} {q : Parts}

lemma binding_records (h : p.Records q) : Records (binding p) (binding q) := by
  refine .bind .next fun _ => .bind .peek fun t => ?_
  split
  · exact .bind .next fun _ => .bind (.expect _) fun _ => (h.expression .lowest).bind fun _ =>
      .bind (.skip _) fun _ => .pure _
  · exact .fail _

lemma returning_records (h : p.Records q) : Records (returning p) (returning q) :=
  .bind .next fun _ => (h.expression .lowest).bind fun _ => .bind (.skip _) fun _ => .pure _

lemma blockStatement_records (h : p.Records q) :
    Records (blockStatement p) (blockStatement q) :=
  h.block.bind fun _ => .bind (.skip _) fun _ => .pure _

lemma expressionStatement_records (h : p.Records q) :
    Records (expressionStatement p) (expressionStatement q) :=
  (h.expression .lowest).bind fun _ => .bind (.skip _) fun _ => .pure _

theorem statement_records (h : p.Records q) : Records (statement p) (statement q) := by
  refine .called (.bind .peek fun t => ?_) .statement
  split
  · exact binding_records h
  · exact returning_records h
  · exact blockStatement_records h
  · exact (expressionStatement_records h).called .expressionStatement

lemma unclosed_records {α : Type} : Records (unclosed : Traced α) unclosed :=
  .bind .next fun _ => .fail _

lemma statements_records (h : p.Records q) (n : Nat) :
    Records (statements p n) (statements q n) := by
  induction n with
  | zero => exact unclosed_records
  | succ n ih =>
    refine .bind .peek fun t => ?_
    split
    · exact .bind .next fun _ => .bind .leave fun _ => .pure []
    · exact unclosed_records
    · exact (statement_records h).bind fun _ => ih.bind fun _ => .pure _

theorem block_records (h : p.Records q) : Records (block p) (block q) :=
  .bind (.expect _) fun _ => .bind .enter fun _ => .bind .unread fun n => statements_records h n

lemma integer_records (digits : String) : Records (integer digits) (integer digits) := by
  refine .bind .next fun _ => ?_
  split
  · exact .pure _
  · exact .fail _

lemma unary_records (h : p.Records q) (op : UnaryOp) : Records (unary p op) (unary q op) :=
  .bind .next fun _ => (h.expression .unary).bind fun _ => .pure _

lemma grouped_records (h : p.Records q) : Records (grouped p) (grouped q) :=
  .bind .next fun _ => (h.expression .lowest).bind fun _ => .bind (.expect _) fun _ => .pure _

lemma conditional_records (h : p.Records q) : Records (conditional p) (conditional q) := by
  refine .bind .next fun _ => .bind (.expect _) fun _ => (h.expression .lowest).bind fun _ =>
    .bind (.expect _) fun _ => (block_records h).bind fun _ => .bind .peek fun t => ?_
  split
  · exact .bind .next fun _ => (block_records h).bind fun _ => .pure _
  · exact .pure _

lemma parameter_records : Records parameter parameter := by
  refine .bind .peek fun t => .bind .next fun _ => ?_
  split
  · exact .pure _
  · exact .fail _

lemma function_records (h : p.Records q) : Records (function p) (function q) :=
  .bind .next fun _ => .bind (.expect _) fun _ => parameter_records.items.bind fun _ =>
    (block_records h).bind fun _ => .pure _

lemma noOperand_records : Records noOperand noOperand :=
  .bind .peek fun _ => .bind .next fun _ => .fail _

theorem operand_records (h : p.Records q) : Records (operand p) (operand q) := by
  refine .bind .peek fun t => ?_
  split
  · exact .bind .next fun _ => .pure _
  · exact (integer_records _).called .integer
  · exact .bind .next fun _ => .pure _
  · exact .bind .next fun _ => .pure _
  · exact conditional_records h
  · exact function_records h
  · exact (unary_records h .not).called .unary
  · exact (unary_records h .negate).called .unary
  · exact grouped_records h
  · exact (block_records h).bind fun _ => .pure _
  · exact noOperand_records

lemma continuation_records (h : p.Records q) (left : Expression) (k : Continuation) :
    Records (continuation p left k) (continuation q left k) := by
  cases k with
  | operator op =>
    exact .called (.bind .next fun _ => (h.expression op.level).bind fun _ => .pure _) .binary
  | arguments =>
    exact .bind .next fun _ => (h.expression .lowest).items.bind fun _ => .pure _

lemma continued_records (h : p.Records q) (level : Level) (n : Nat) (left : Expression) :
    Records (continued p level n left) (continued q level n left) := by
  induction n generalizing left with
  | zero => exact .pure left
  | succ n ih =>
    refine .bind .peek fun t => ?_
    split
    · next k hk =>
      split
      · exact (continuation_records h left k).bind fun e => ih e
      · exact .pure left
    · exact .pure left

theorem expression_records (h : p.Records q) (level : Level) :
    Records (expression p level) (expression q level) :=
  .called ((operand_records h).bind fun left => .bind .unread fun n =>
    continued_records h level n left) .expression

end Grammar

/-- The traced parsers for the parts of a text record what the parsers for them do. -/
theorem Parts.records_ofDepth (n : Nat) : (Parts.ofDepth n).Records (Parts.ofDepth n) := by
  induction n with
  | zero => exact ⟨fun _ => Grammar.noOperand_records.called .expression, .fail _⟩
  | succ n ih => exact ⟨Grammar.expression_records ih, Grammar.block_records ih⟩

/-! ### Sessions -/

namespace Session

/-- Reading statements in a session is reading them, with the errors behind those so far and the
calls written by the tracer. -/
theorem readFrom_eq {p : Parts Traced} {q : Parts} (h : p.Records q) (n : Nat) (s : Session) :
    s.readFrom p n =
      ((Reading.from q n s.cursor).program,
        ⟨(Reading.from q n s.cursor).cursor, s.errors ++ (Reading.from q n s.cursor).errors,
          s.tracer.wrote (Reading.from q n s.cursor).calls⟩) := by
  induction n generalizing s with
  | zero => simp [readFrom, Reading.from]
  | succ n ih =>
    rw [readFrom, Reading.from]
    split
    · simp
    · have hrun := Grammar.statement_records h s.cursor s.tracer
      rcases ho : Grammar.statement q s.cursor with ⟨e | a, c, calls⟩ <;> rw [ho] at hrun
      · simp only [hrun, ih]
        simp [Reading.cons, Tracer.wrote_append]
      · simp only [hrun, ih]
        simp [Reading.cons, Tracer.wrote_append]

/-- A session reads what stands at its cursor, and its tracer writes the calls of that reading. -/
theorem readProgram_eq (s : Session) :
    s.readProgram =
      (s.cursor.read.program,
        ⟨s.cursor.read.cursor, s.errors ++ s.cursor.read.errors,
          s.tracer.wrote s.cursor.read.calls⟩) :=
  readFrom_eq (Parts.records_ofDepth s.cursor.rest.length) s.cursor.rest.length s

lemma program_readProgram (s : Session) : s.readProgram.1 = s.cursor.read.program := by
  rw [readProgram_eq]

lemma cursor_readProgram (s : Session) : s.readProgram.2.cursor = s.cursor.read.cursor := by
  rw [readProgram_eq]

lemma errors_readProgram (s : Session) :
    s.readProgram.2.errors = s.errors ++ s.cursor.read.errors := by
  rw [readProgram_eq]

lemma tracer_readProgram (s : Session) :
    s.readProgram.2.tracer = s.tracer.wrote s.cursor.read.calls := by
  rw [readProgram_eq]

/-- A whole text, with tracing or without: what is read is the reading of the text, and the lines
are those of its calls. -/
theorem readProgram_ofText (text : List Char) (trace : Bool) :
    ((ofText text).trace trace).readProgram =
      ((Reading.ofText text).program,
        ⟨(Reading.ofText text).cursor, (Reading.ofText text).errors,
          (Tracer.new trace).wrote (Reading.ofText text).calls⟩) :=
  readProgram_eq _

/-- A whole text is read in a session as it is parsed, with tracing or without. -/
theorem parse_eq_readProgram (source : String) (trace : Bool) :
    parse source = (((ofText source.toList).trace trace).readProgram.1,
      ((ofText source.toList).trace trace).readProgram.2.errors) := by
  rw [readProgram_ofText, parse]

/-- With tracing, the lines written for a whole text are the listing of its calls. -/
theorem takeListing_readProgram_ofText (text : List Char) :
    ((ofText text).trace true).readProgram.2.takeListing.1 =
      Call.listing (Reading.ofText text).calls := by
  rw [readProgram_ofText, takeListing, Tracer.take, Tracer.wrote_of_enabled rfl]
  simp [Tracer.new, Call.listing]

end Session
end TreeWalk
