/-
# The calls of a reading and its tree

The calls of a reading account for the tree that is read.  Each piece of the tree
(`Statement.pieces`) is built by calls of its own, and by no others: a statement by a call of
`statement`, an operator by one of its routine and one of `expression` for the operand behind it, an
argument by one of `expression`, and so on.  Parentheses that group stand for no piece; they make a
call of `expression`, too.  These are the parentheses that neither a conditional has nor a function
nor a call.

So a parser that gives a tree makes as many calls of a routine as the pieces of the tree are worth
and the parentheses that it reads (`Parser.Accounts`).  What is read is the difference between what
is left in front and what is left behind; hence the worth of parts adds up along a parser, and each
construct of the grammar needs only its own table entry.
-/
import Mathlib
import TreeWalk.Proofs.Acceptance
import TreeWalk.Proofs.EndOfInput
import TreeWalk.Proofs.Nesting

namespace TreeWalk

/-! ### The pieces of a tree -/

/-- What a tree is made of. -/
inductive Piece where
  | binding | returning | expressionStatement | blockStatement
  | identifier | integer | boolean | unary | binary | conditional | block | function | call
  /-- An argument of a call, in addition to the expression that it is. -/
  | argument
deriving DecidableEq

/-- Is a piece a statement? -/
def Piece.isStatement : Piece → Bool
  | binding | returning | expressionStatement | blockStatement => true
  | _ => false

mutual

/-- The pieces of an expression. -/
def Expression.pieces : Expression → List Piece
  | .identifier _ => [.identifier]
  | .integer _ => [.integer]
  | .boolean _ => [.boolean]
  | .unary _ e => .unary :: e.pieces
  | .binary _ l r => .binary :: (l.pieces ++ r.pieces)
  | .ifThen c t => .conditional :: (c.pieces ++ Statement.piecesOfEach t)
  | .ifElse c t e =>
    .conditional :: (c.pieces ++ (Statement.piecesOfEach t ++ Statement.piecesOfEach e))
  | .block b => .block :: Statement.piecesOfEach b
  | .function _ b => .function :: Statement.piecesOfEach b
  | .call f as => .call :: (f.pieces ++ Expression.piecesOfArguments as)

/-- The pieces of arguments. -/
def Expression.piecesOfArguments : List Expression → List Piece
  | [] => []
  | e :: es => .argument :: (e.pieces ++ Expression.piecesOfArguments es)

/-- The pieces of a statement. -/
def Statement.pieces : Statement → List Piece
  | .binding _ e => .binding :: e.pieces
  | .returning e => .returning :: e.pieces
  | .expression e => .expressionStatement :: e.pieces
  | .block b => .blockStatement :: Statement.piecesOfEach b

/-- The pieces of statements, one after the other. -/
def Statement.piecesOfEach : List Statement → List Piece
  | [] => []
  | s :: ss => s.pieces ++ Statement.piecesOfEach ss

end

/-! ### The calls of a routine -/

namespace Call

mutual

/-- The routines of a call and of the calls inside it. -/
def routines : Call → List Routine
  | mk routine _ inner => routine :: routinesOfEach inner

/-- The routines of some calls and of those inside them. -/
def routinesOfEach : List Call → List Routine
  | [] => []
  | call :: calls => routines call ++ routinesOfEach calls

end

lemma routinesOfEach_append (as bs : List Call) :
    routinesOfEach (as ++ bs) = routinesOfEach as ++ routinesOfEach bs := by
  induction as with
  | nil => rfl
  | cons a as ih => simp [routinesOfEach, ih]

/-- Does a line begin a call of the routine with this name? -/
def begins (name line : String) : Bool :=
  match Mark.ofLine? line with
  | some (.begins _ routine) => routine = name
  | _ => false

lemma begins_beginText (r routine : Routine) (depth : Nat) (token : Token) :
    begins r.name (line depth (routine.beginText token)) = (routine == r) := by
  rw [begins, Mark.ofLine?_beginText]
  cases r <;> cases routine <;> rfl

lemma begins_endText (name : String) (depth : Nat) (routine : Routine) :
    begins name (line depth routine.endText) = false := by
  rw [begins, Mark.ofLine?_endText]

mutual

/-- Each call has one line that begins it. -/
theorem countP_lines (r : Routine) (depth : Nat) :
    ∀ call : Call, (lines depth call).countP (begins r.name) = (routines call).count r
  | mk routine token inner => by
    rw [lines, List.cons_append, List.countP_cons, List.countP_append, List.countP_singleton,
      begins_beginText, begins_endText, countP_linesOfEach r _ inner, routines, List.count_cons]
    rfl

theorem countP_linesOfEach (r : Routine) (depth : Nat) :
    ∀ calls : List Call,
      (linesOfEach depth calls).countP (begins r.name) = (routinesOfEach calls).count r
  | [] => rfl
  | call :: calls => by
    rw [linesOfEach, List.countP_append, countP_lines r depth call,
      countP_linesOfEach r depth calls, routinesOfEach, List.count_append]

end

end Call

/-! ### What pieces are worth -/

namespace Routine

variable (r : Routine)

/-- One call of a routine, counted for `r`. -/
def one (routine : Routine) : Int :=
  if routine = r then 1 else 0

/-- The calls of `r` that a piece is worth: those it is built by, less one of `expression` for a
parenthesis of its own. -/
def worth : Piece → Int
  | .binding | .returning => r.one statement + r.one expression
  | .expressionStatement => r.one statement + r.one expressionStatement + r.one expression
  | .blockStatement => r.one statement
  | .integer => r.one integer
  | .unary => r.one unary + r.one expression
  | .binary => r.one binary + r.one expression
  | .argument => r.one expression
  -- a call for the condition, and a parenthesis
  | .conditional => 0
  | .function | .call => -r.one expression
  | .identifier | .boolean | .block => 0

/-- The calls of `r` that some pieces are worth. -/
def due (pieces : List Piece) : Int :=
  (pieces.map r.worth).sum

/-- The calls of `r` that a token is worth: one of `expression` for a parenthesis. -/
def worthOfToken : Token → Int
  | .symbol .leftParen => r.one expression
  | _ => 0

/-- The calls of `r` that some tokens are worth. -/
def dueTo (tokens : List Token) : Int :=
  (tokens.map r.worthOfToken).sum

@[simp] lemma due_nil : r.due [] = 0 := rfl

@[simp] lemma due_cons (piece : Piece) (pieces : List Piece) :
    r.due (piece :: pieces) = r.worth piece + r.due pieces :=
  List.sum_cons

@[simp] lemma due_append (pieces pieces' : List Piece) :
    r.due (pieces ++ pieces') = r.due pieces + r.due pieces' := by
  rw [due, List.map_append, List.sum_append]
  rfl

lemma dueTo_append (tokens tokens' : List Token) :
    r.dueTo (tokens ++ tokens') = r.dueTo tokens + r.dueTo tokens' := by
  rw [dueTo, List.map_append, List.sum_append]
  rfl

lemma due_piecesOfArguments (es : List Expression) :
    r.due (Expression.piecesOfArguments es) =
      (es.map fun e => r.due e.pieces + r.one expression).sum := by
  induction es with
  | nil => rfl
  | cons e es ih =>
    rw [Expression.piecesOfArguments, due_cons, due_append, ih, List.map_cons, List.sum_cons,
      worth]
    omega

lemma dueTo_next (c : Cursor) : r.dueTo c.rest = r.worthOfToken c.peek + r.dueTo c.next.rest := by
  obtain ⟨last, rest, d⟩ := c
  cases rest with
  | nil => rfl
  | cons t rest => exact List.sum_cons

@[simp] lemma worthOfToken_sign (op : BinaryOp) : r.worthOfToken (.symbol op.sign) = 0 := by
  cases op <;> rfl

@[simp] lemma worthOfToken_unarySign (op : UnaryOp) : r.worthOfToken (.symbol op.sign) = 0 := by
  cases op <;> rfl

end Routine

/-! ### Accounts of parsers -/

namespace Parser

open Call

/-- If the parser gives `a` at `c`, it makes as many calls of `r` as `a` is worth, and the tokens
that it reads. -/
def Accounts {α : Type} (r : Routine) (p : Parser α) (c : Cursor) (worth : α → Int) : Prop :=
  ∀ a c' calls, p c = ⟨.ok a, c', calls⟩ →
    ((routinesOfEach calls).count r : Int) + r.dueTo c'.rest = worth a + r.dueTo c.rest

variable {α β : Type} {r : Routine} {p : Parser α} {f : α → Parser β} {c : Cursor}
  {worth : α → Int} {worth' : β → Int} {t : Token}

lemma Accounts.pure {a : α} (h : worth a = 0) : (pure a : Parser α).Accounts r c worth := by
  intro a' c' calls hend
  cases hend
  simp [h, routinesOfEach]

lemma Accounts.fail (e : ParseError) : (fail e : Parser α).Accounts r c worth := by
  intro a c' calls hend
  cases hend

lemma Accounts.bind (hp : p.Accounts r c worth)
    (hf : ∀ a c₁, (f a).Accounts r c₁ fun b => worth' b - worth a) :
    (p >>= f).Accounts r c worth' := by
  intro b c' calls hend
  rcases hc : p c with ⟨result, c₁, before⟩
  cases result with
  | error e =>
    rw [bind_of_error hc] at hend
    cases hend
  | ok a =>
    rw [bind_of_ok hc] at hend
    rcases hd : f a c₁ with ⟨result, c₂, behind⟩
    rw [hd] at hend
    cases hend
    have hfirst := hp _ _ _ hc
    have hsecond := hf _ _ _ _ _ hd
    dsimp only at hsecond ⊢
    rw [routinesOfEach_append, List.count_append, Nat.cast_add]
    omega

lemma accounts_peek_bind {f : Token → Parser β} :
    (peek >>= f).Accounts r c worth' ↔ (f c.peek).Accounts r c worth' := Iff.rfl

lemma accounts_unread_bind {f : Nat → Parser β} :
    (unread >>= f).Accounts r c worth' ↔ (f c.rest.length).Accounts r c worth' := Iff.rfl

lemma Accounts.next_bind {f : Unit → Parser β}
    (h : (f ()).Accounts r c.next fun b => worth' b + r.worthOfToken c.peek) :
    (next >>= f).Accounts r c worth' := by
  intro b c' calls hend
  have hrest := h b c' calls hend
  have hnext := r.dueTo_next c
  dsimp only at hrest
  omega

lemma Accounts.expect_bind {f : Unit → Parser β}
    (h : (f ()).Accounts r c.next fun b => worth' b + r.worthOfToken t) :
    (expect t >>= f).Accounts r c worth' := by
  intro b c' calls hend
  by_cases hc : c.peek = t
  · have hexpect : (expect t : Parser Unit) c = ⟨.ok (), c.next, []⟩ := by simp [expect, hc]
    rw [bind_of_ok hexpect] at hend
    rw [← hc] at h
    exact h.next_bind b c' calls hend
  · have hexpect : (expect t : Parser Unit) c = ⟨.error (.expected t c.peek), c, []⟩ := by
      simp [expect, hc]
    rw [bind_of_error hexpect] at hend
    cases hend

lemma Accounts.skip_bind {f : Unit → Parser β} (ht : r.worthOfToken t = 0)
    (h : ∀ c, (f ()).Accounts r c worth') : (skip t >>= f).Accounts r c worth' := by
  intro b c' calls hend
  by_cases hc : c.peek = t
  · have hskip : (skip t : Parser Unit) c = ⟨.ok (), c.next, []⟩ := by simp [skip, hc]
    rw [bind_of_ok hskip] at hend
    have hnext : (f ()).Accounts r c.next fun b => worth' b + r.worthOfToken c.peek := by
      simpa [hc, ht] using h c.next
    exact hnext.next_bind b c' calls hend
  · have hskip : (skip t : Parser Unit) c = ⟨.ok (), c, []⟩ := by simp [skip, hc]
    rw [bind_of_ok hskip] at hend
    exact h c b c' calls hend

lemma Accounts.called {routine : Routine}
    (h : p.Accounts r c fun a => worth a - r.one routine) :
    (called routine p).Accounts r c worth := by
  intro a c' calls hend
  rcases hc : p c with ⟨result, c₁, inner⟩
  rw [called_apply, hc] at hend
  cases hend
  have hinner := h _ _ _ hc
  have hone : ((if routine == r then 1 else 0 : Nat) : Int) = r.one routine := by
    by_cases hroutine : routine = r <;> simp [Routine.one, hroutine]
  dsimp only at hinner ⊢
  rw [routinesOfEach, routines, routinesOfEach, List.append_nil, List.count_cons, Nat.cast_add,
    hone]
  omega

/-- Items behind commas are worth as much as one by one. -/
lemma moreItems_accounts {item : Parser α} (hitem : ∀ c, item.Accounts r c worth) (n : Nat)
    (c : Cursor) : (moreItems item n).Accounts r c fun as => (as.map worth).sum := by
  induction n generalizing c with
  | zero => exact .pure rfl
  | succ n ih =>
    rw [moreItems, accounts_peek_bind]
    split
    · next hc =>
      refine .next_bind ((hitem _).bind fun a c₁ => (ih c₁).bind fun as c₂ => .pure ?_)
      simp [hc, Routine.worthOfToken]
    · exact .pure rfl

lemma items_accounts {item : Parser α} (hitem : ∀ c, item.Accounts r c worth) (c : Cursor) :
    (items item).Accounts r c fun as => (as.map worth).sum := by
  rw [items, accounts_peek_bind]
  split
  · next hc =>
    refine .next_bind (.pure ?_)
    simp [hc, Routine.worthOfToken]
  · refine (hitem c).bind fun a c₁ => accounts_unread_bind.mpr ?_
    refine (moreItems_accounts hitem _ c₁).bind fun as c₂ => .expect_bind (.pure ?_)
    simp [Routine.worthOfToken]

end Parser

/-! ### The grammar -/

/-- The parsers for parts make the calls that their parts are worth, and for an expression the call
that reads it. -/
structure Parts.Accounts (r : Routine) (p : Parts) : Prop where
  expression : ∀ lv c,
    (p.expression lv).Accounts r c fun e => r.due e.pieces + r.one .expression
  block : ∀ c, p.block.Accounts r c fun ss => r.due (Statement.piecesOfEach ss)

namespace Grammar

open TreeWalk.Parser

variable {r : Routine} {p : Parts} {c : Cursor}

/-- What stands behind the value of a statement. -/
lemma ended_accounts (hp : p.Accounts r) (f : Expression → Statement) (c : Cursor)
    {worth : Statement → Int} (hf : ∀ e, worth (f e) = r.due e.pieces + r.one .expression) :
    (p.expression .lowest >>= fun e => skip (.symbol .semicolon) >>= fun _ =>
      pure (f e)).Accounts r c worth := by
  refine (hp.expression _ c).bind fun e c₁ => .skip_bind rfl fun c₂ => .pure ?_
  rw [hf, sub_self]

lemma binding_accounts (hp : p.Accounts r) (hc : c.peek = .keyword .letWord) :
    (binding p).Accounts r c fun s => r.due s.pieces - r.one .statement := by
  refine .next_bind (accounts_peek_bind.mpr ?_)
  split
  · next name hname =>
    refine .next_bind (.expect_bind (ended_accounts hp _ _ fun e => ?_))
    simp only [Statement.pieces, Routine.due_cons, Routine.worth, hc, hname, Routine.worthOfToken]
    omega
  · exact .fail _

lemma returning_accounts (hp : p.Accounts r) (hc : c.peek = .keyword .returnWord) :
    (returning p).Accounts r c fun s => r.due s.pieces - r.one .statement := by
  refine .next_bind (ended_accounts hp _ _ fun e => ?_)
  simp only [Statement.pieces, Routine.due_cons, Routine.worth, hc, Routine.worthOfToken]
  omega

lemma blockStatement_accounts (hp : p.Accounts r) (c : Cursor) :
    (blockStatement p).Accounts r c fun s => r.due s.pieces - r.one .statement := by
  refine (hp.block c).bind fun body c₁ => .skip_bind rfl fun c₂ => .pure ?_
  simp [Statement.pieces, Routine.worth]

lemma expressionStatement_accounts (hp : p.Accounts r) (c : Cursor) :
    (expressionStatement p).Accounts r c fun s =>
      r.due s.pieces - r.one .statement - r.one .expressionStatement := by
  refine ended_accounts hp _ _ fun e => ?_
  simp only [Statement.pieces, Routine.due_cons, Routine.worth]
  omega

theorem statement_accounts (hp : p.Accounts r) (c : Cursor) :
    (statement p).Accounts r c fun s => r.due s.pieces := by
  refine .called (accounts_peek_bind.mpr ?_)
  split
  · next hc => exact binding_accounts hp hc
  · next hc => exact returning_accounts hp hc
  · exact blockStatement_accounts hp c
  · exact .called (expressionStatement_accounts hp c)

lemma unclosed_accounts {α : Type} {worth : α → Int} : (unclosed : Parser α).Accounts r c worth :=
  .next_bind (.fail _)

lemma statements_accounts (hp : p.Accounts r) (n : Nat) (c : Cursor) :
    (statements p n).Accounts r c fun ss => r.due (Statement.piecesOfEach ss) := by
  induction n generalizing c with
  | zero => exact unclosed_accounts
  | succ n ih =>
    refine accounts_peek_bind.mpr ?_
    split
    · next hc =>
      -- leaving a block does not move on
      refine .next_bind fun ss c' calls hend => ?_
      rw [leave_bind] at hend
      cases hend
      simp [hc, Routine.worthOfToken, Statement.piecesOfEach, Call.routinesOfEach]
    · exact unclosed_accounts
    · refine (statement_accounts hp c).bind fun s c₁ => (ih c₁).bind fun ss c₂ => .pure ?_
      simp [Statement.piecesOfEach]

theorem block_accounts (hp : p.Accounts r) (c : Cursor) :
    (block p).Accounts r c fun ss => r.due (Statement.piecesOfEach ss) := by
  refine .expect_bind fun ss c' calls hend => ?_
  rw [enter_bind, unread_bind] at hend
  have hstatements := statements_accounts hp _ _ _ _ _ hend
  simpa [Routine.worthOfToken] using hstatements

/-! ### Operands -/

lemma integer_accounts {digits : String} (hc : c.peek = .int digits) :
    (integer digits : Parser Expression).Accounts r c fun e => r.due e.pieces - r.one .integer := by
  refine .next_bind ?_
  split
  · refine .pure ?_
    simp [hc, Routine.worthOfToken, Expression.pieces, Routine.worth]
  · exact .fail _

lemma unary_accounts (hp : p.Accounts r) (op : UnaryOp) (hc : c.peek = .symbol op.sign) :
    (unary p op).Accounts r c fun e => r.due e.pieces - r.one .unary := by
  refine .next_bind ((hp.expression _ _).bind fun e c₁ => .pure ?_)
  simp only [Expression.pieces, Routine.due_cons, Routine.worth, hc, Routine.worthOfToken_unarySign]
  omega

lemma grouped_accounts (hp : p.Accounts r) (hc : c.peek = .symbol .leftParen) :
    (grouped p).Accounts r c fun e => r.due e.pieces := by
  refine .next_bind ((hp.expression _ _).bind fun e c₁ => .expect_bind (.pure ?_))
  simp [hc, Routine.worthOfToken]

lemma conditional_accounts (hp : p.Accounts r) (hc : c.peek = .keyword .ifWord) :
    (conditional p).Accounts r c fun e => r.due e.pieces := by
  refine .next_bind (.expect_bind ((hp.expression _ _).bind fun condition c₁ => .expect_bind
    ((block_accounts hp _).bind fun consequence c₂ => accounts_peek_bind.mpr ?_)))
  split
  · next helse =>
    refine .next_bind ((block_accounts hp _).bind fun alternative c₃ => .pure ?_)
    simp [hc, helse, Routine.worthOfToken, Expression.pieces, Routine.worth]
  · refine .pure ?_
    simp [hc, Routine.worthOfToken, Expression.pieces, Routine.worth]

lemma parameter_accounts (c : Cursor) : (parameter : Parser String).Accounts r c fun _ => 0 := by
  refine accounts_peek_bind.mpr (.next_bind ?_)
  split
  · next name hname =>
    refine .pure ?_
    simp [hname, Routine.worthOfToken]
  · exact .fail _

lemma function_accounts (hp : p.Accounts r) (hc : c.peek = .keyword .fnWord) :
    (function p).Accounts r c fun e => r.due e.pieces := by
  refine .next_bind (.expect_bind ((items_accounts parameter_accounts _).bind fun names c₁ =>
    (block_accounts hp _).bind fun body c₂ => .pure ?_))
  simp [hc, Routine.worthOfToken, Expression.pieces, Routine.worth]

lemma noOperand_accounts {worth : Expression → Int} :
    (noOperand : Parser Expression).Accounts r c worth :=
  accounts_peek_bind.mpr (.next_bind (.fail _))

theorem operand_accounts (hp : p.Accounts r) (c : Cursor) :
    (operand p).Accounts r c fun e => r.due e.pieces := by
  refine accounts_peek_bind.mpr ?_
  split
  · next hc =>
    refine .next_bind (.pure ?_)
    simp [hc, Routine.worthOfToken, Expression.pieces, Routine.worth]
  · next hc => exact .called (integer_accounts hc)
  · next hc =>
    refine .next_bind (.pure ?_)
    simp [hc, Routine.worthOfToken, Expression.pieces, Routine.worth]
  · next hc =>
    refine .next_bind (.pure ?_)
    simp [hc, Routine.worthOfToken, Expression.pieces, Routine.worth]
  · next hc => exact conditional_accounts hp hc
  · next hc => exact function_accounts hp hc
  · next hc => exact .called (unary_accounts hp .not hc)
  · next hc => exact .called (unary_accounts hp .negate hc)
  · next hc => exact grouped_accounts hp hc
  · refine (block_accounts hp c).bind fun body c₁ => .pure ?_
    simp [Expression.pieces, Routine.worth]
  · exact noOperand_accounts

/-! ### Operators and calls -/

/-- A continuation makes the calls for what it adds to the expression in front of it. -/
lemma continuation_accounts (hp : p.Accounts r) {left : Expression} {k : Continuation}
    (hk : Continuation.ofToken? c.peek = some k) :
    (continuation p left k).Accounts r c fun e => r.due e.pieces - r.due left.pieces := by
  cases k with
  | operator op =>
    have hc : c.peek = .symbol op.sign := Continuation.eq_sign_of_ofToken? hk
    refine .called (.next_bind ((hp.expression _ _).bind fun right c₁ => .pure ?_))
    simp only [Expression.pieces, Routine.due_cons, Routine.due_append, Routine.worth, hc,
      Routine.worthOfToken_sign]
    omega
  | arguments =>
    have hc : c.peek = .symbol .leftParen := Continuation.eq_leftParen_of_ofToken? hk
    refine .next_bind ((items_accounts (hp.expression .lowest) _).bind fun es c₁ => .pure ?_)
    simp only [Expression.pieces, Routine.due_cons, Routine.due_append,
      Routine.due_piecesOfArguments, Routine.worth, hc, Routine.worthOfToken]
    omega

lemma continued_accounts (hp : p.Accounts r) (lv : Level) (n : Nat) (left : Expression)
    (c : Cursor) :
    (continued p lv n left).Accounts r c fun e => r.due e.pieces - r.due left.pieces := by
  induction n generalizing left c with
  | zero => exact .pure (sub_self _)
  | succ n ih =>
    refine accounts_peek_bind.mpr ?_
    split
    · next k hk =>
      split
      · refine (continuation_accounts hp hk).bind fun e c₁ => ?_
        simpa using ih e c₁
      · exact .pure (sub_self _)
    · exact .pure (sub_self _)

theorem expression_accounts (hp : p.Accounts r) (lv : Level) (c : Cursor) :
    (expression p lv).Accounts r c fun e => r.due e.pieces + r.one .expression := by
  refine .called ((operand_accounts hp c).bind fun left c₁ => accounts_unread_bind.mpr ?_)
  simpa using continued_accounts hp lv _ left c₁

end Grammar

/-- The parsers for the parts of any text make the calls that their parts are worth. -/
theorem Parts.accounts_ofDepth (r : Routine) (n : Nat) : (Parts.ofDepth n).Accounts r := by
  induction n with
  | zero => exact ⟨fun _ _ => .called Grammar.noOperand_accounts, fun _ => .fail _⟩
  | succ n ih => exact ⟨Grammar.expression_accounts ih, Grammar.block_accounts ih⟩

/-! ### Readings -/

open Call

namespace Reading

variable {r : Routine} {p : Parts}

/-- The calls of a reading without errors are those that its program is worth, and the tokens that
it reads. -/
lemma from_accounts (hp : p.Accounts r) (n : Nat) (c : Cursor)
    (h : (Reading.from p n c).errors = []) :
    ((routinesOfEach (Reading.from p n c).calls).count r : Int) +
        r.dueTo (Reading.from p n c).cursor.rest =
      r.due (Statement.piecesOfEach (Reading.from p n c).program) + r.dueTo c.rest := by
  induction n generalizing c with
  | zero => rfl
  | succ n ih =>
    rw [Reading.from] at h ⊢
    split
    · rfl
    · next hc =>
      rw [if_neg hc] at h
      rcases hs : Grammar.statement p c with ⟨result, c₁, calls⟩
      rw [hs] at h
      cases result with
      | error e => cases h
      | ok s =>
        have hstatement := Grammar.statement_accounts hp c _ _ _ hs
        have hbehind := ih c₁ h
        simp only [Reading.cons, routinesOfEach_append, List.count_append, Nat.cast_add,
          Statement.piecesOfEach, Routine.due_append] at hstatement ⊢
        omega

/-- The calls of a text that is read without errors. -/
lemma ofText_accounts {text : List Char} (h : (ofText text).errors = []) (r : Routine) :
    ((routinesOfEach (ofText text).calls).count r : Int) + r.dueTo (ofText text).cursor.rest =
      r.due (Statement.piecesOfEach (ofText text).program) + r.dueTo (Token.stream text) :=
  from_accounts (Parts.accounts_ofDepth r _) _ _ h

end Reading

/-- The calls of a source text that is read without errors, by its program and its tokens. -/
lemma count_routines {source : String} {p : Program} (h : parse source = (p, [])) (r : Routine) :
    ((routinesOfEach (Reading.ofText source.toList).calls).count r : Int) =
      r.due (Statement.piecesOfEach p) + r.dueTo (Token.ofSource source) := by
  obtain ⟨c', hvisits, hend⟩ := parse_eq_iff.mp h
  obtain ⟨ts, -, hpass⟩ := hvisits.exists_form
  have htokens : Token.ofSource source = ts := Cursor.passes_start_iff.mp ⟨c', hpass, hend⟩
  have hcursor : (Reading.ofText source.toList).cursor = c' :=
    hvisits.cursor_eq hend (Nat.le_refl _) (Nat.le_refl _)
  have hprogram : (Reading.ofText source.toList).program = p := congrArg Prod.fst h
  have haccount := Reading.ofText_accounts (congrArg Prod.snd h) r
  have hstream : r.dueTo (Token.stream source.toList) = r.dueTo ts + r.dueTo c'.rest := by
    rw [← r.dueTo_append, ← hpass.rest_eq]
    rfl
  rw [hcursor, hprogram, hstream] at haccount
  rw [htokens]
  omega

/-! ### What is counted -/

namespace Routine

variable {r : Routine}

/-- The pieces that a routine other than `expression` builds, one with each call. -/
def builds : Routine → Piece → Bool
  | statement => Piece.isStatement
  | expressionStatement => (· == .expressionStatement)
  | unary => (· == .unary)
  | binary => (· == .binary)
  | integer => (· == .integer)
  | expression => fun _ => false

lemma worth_eq (hr : r ≠ expression) (piece : Piece) :
    r.worth piece = if r.builds piece then 1 else 0 := by
  cases r with
  | expression => exact absurd rfl hr
  | statement | expressionStatement | unary | binary | integer => cases piece <;> rfl

lemma due_eq (hr : r ≠ expression) (pieces : List Piece) :
    r.due pieces = pieces.countP r.builds := by
  induction pieces with
  | nil => rfl
  | cons piece pieces ih =>
    rw [due_cons, ih, worth_eq hr, List.countP_cons, Nat.cast_add, add_comm]
    cases r.builds piece <;> rfl

/-- What is worth a call of `expression`, less what has a parenthesis of its own. -/
lemma due_expression (pieces : List Piece) :
    due .expression pieces = pieces.count .binding + pieces.count .returning +
      pieces.count .expressionStatement + pieces.count .argument + pieces.count .unary +
      pieces.count .binary - pieces.count .function - pieces.count .call := by
  induction pieces with
  | nil => rfl
  | cons piece pieces ih =>
    rw [due_cons, ih]
    cases piece <;> simp [worth, one] <;> omega

lemma worthOfToken_eq (r : Routine) (t : Token) :
    r.worthOfToken t = if t = .symbol .leftParen then r.one .expression else 0 := by
  unfold worthOfToken
  split
  · rw [if_pos rfl]
  · next hne => rw [if_neg hne]

lemma dueTo_eq (r : Routine) (tokens : List Token) :
    r.dueTo tokens = r.one .expression * tokens.count (.symbol .leftParen) := by
  induction tokens with
  | nil => exact (mul_zero _).symm
  | cons t tokens ih =>
    have hcons : r.dueTo (t :: tokens) = r.worthOfToken t + r.dueTo tokens := List.sum_cons
    rw [hcons, ih, worthOfToken_eq, List.count_cons]
    by_cases ht : t = .symbol .leftParen <;> simp [ht, mul_add, add_comm]

end Routine

/-- The lines that begin calls of a routine other than `expression` are as many as the pieces that
it builds. -/
lemma countP_begins {source : String} {p : Program} (h : parse source = (p, [])) {r : Routine}
    (hr : r ≠ .expression) :
    (listing (Reading.ofText source.toList).calls).countP (begins r.name) =
      (Statement.piecesOfEach p).countP r.builds := by
  have hcount := count_routines h r
  rw [Routine.dueTo_eq, Routine.one, if_neg hr.symm, zero_mul, add_zero,
    Routine.due_eq hr] at hcount
  rw [listing, countP_linesOfEach]
  exact Int.ofNat_inj.mp hcount

/-- The lines that begin calls of `expression`. -/
lemma countP_begins_expression {source : String} {p : Program} (h : parse source = (p, [])) :
    ((listing (Reading.ofText source.toList).calls).countP (begins "parse_expression") : Int) =
      Routine.due .expression (Statement.piecesOfEach p) +
        (Token.ofSource source).count (.symbol .leftParen) := by
  have hcount := count_routines h .expression
  rw [Routine.dueTo_eq, Routine.one, if_pos rfl, one_mul,
    ← countP_linesOfEach .expression 0] at hcount
  exact hcount

/-- The listing of a reading without errors accounts for the tree that is read.  The calls of
`parse_statement` are the statements at all depths, and those of `parse_expression_statement`,
`parse_unary_expression`, `parse_binary_expression` and `parse_integer_literal` the pieces that
these routines build.  The calls of `parse_expression` are the values of statements, the conditions,
the arguments, the operands behind an operator, and the parentheses that neither a conditional has
nor a function nor a call. -/
theorem Session.listing_accounts {source : String} {p : Program} (h : parse source = (p, [])) :
    let reading := ((ofText source.toList).trace true).readProgram
    let lines := reading.2.takeListing.1
    let pieces := Statement.piecesOfEach p
    reading.1 = p ∧
      lines.countP (begins "parse_statement") = pieces.countP Piece.isStatement ∧
      lines.countP (begins "parse_expression_statement") = pieces.count .expressionStatement ∧
      lines.countP (begins "parse_unary_expression") = pieces.count .unary ∧
      lines.countP (begins "parse_binary_expression") = pieces.count .binary ∧
      lines.countP (begins "parse_integer_literal") = pieces.count .integer ∧
      (lines.countP (begins "parse_expression") : Int) =
        pieces.count .binding + pieces.count .returning + pieces.count .expressionStatement +
          pieces.count .conditional + pieces.count .argument + pieces.count .unary +
          pieces.count .binary +
          ((Token.ofSource source).count (.symbol .leftParen) - pieces.count .conditional -
            pieces.count .function - pieces.count .call) := by
  intro reading lines pieces
  have hprogram : reading.1 = p :=
    congrArg Prod.fst ((parse_eq_readProgram source true).symm.trans h)
  have hlines : lines = listing (Reading.ofText source.toList).calls :=
    takeListing_readProgram_ofText source.toList
  rw [hlines]
  refine ⟨hprogram, countP_begins (r := .statement) h (by decide),
    countP_begins (r := .expressionStatement) h (by decide),
    countP_begins (r := .unary) h (by decide), countP_begins (r := .binary) h (by decide),
    countP_begins (r := .integer) h (by decide), ?_⟩
  rw [countP_begins_expression h, Routine.due_expression pieces]
  omega

/-- A function with a group in it, and a condition that is a call. -/
theorem Session.listing_accounts_function :
    let source := "let f = fn(x) \x7b return -x * (1 + x) \x7d; if (f(2, 3)) \x7b 4 \x7d"
    let p : Program := [.binding "f" (.function ["x"] [.returning (.binary .multiply
        (.unary .negate (.identifier "x")) (.binary .add (.integer 1) (.identifier "x")))]),
      .expression (.ifThen (.call (.identifier "f") [.integer 2, .integer 3])
        [.expression (.integer 4)])]
    let lines := ((ofText source.toList).trace true).readProgram.2.takeListing.1
    parse source = (p, []) ∧ lines.countP (begins "parse_statement") = 4 ∧
      lines.countP (begins "parse_binary_expression") = 2 ∧
      (lines.countP (begins "parse_expression") : Int) = 11 := by
  intro source p lines
  have hparse : parse source = (p, []) := by decide +kernel
  have hparens : (Token.ofSource source).count (.symbol .leftParen) = 4 := by decide +kernel
  obtain ⟨-, hstatement, -, -, hbinary, -, hexpression⟩ := listing_accounts hparse
  rw [hparens] at hexpression
  exact ⟨hparse, hstatement, hbinary, hexpression⟩

end TreeWalk
