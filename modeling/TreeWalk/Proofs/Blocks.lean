/-
# Counting open blocks

The count of open blocks goes up where a block is entered and down where it is left, and a parser
that fails leaves it as it is.  To see that the count is right, the grammar is read once more with
the way of counting left open (`Count`): it need not be by numbers that go up and down by one, and
nothing is said about a block that is closed when none is open.

However blocks are counted, a parser of the grammar does the same, and what becomes of the count can
be told from the braces among the tokens that it read, in their order (`Keeps`).  No block is closed
among them that was not opened by the same parser.  So the usual count grows by the number of blocks
that were opened and not closed, which is zero unless the parser fails, and it never goes down from
zero.
-/
import Mathlib.Tactic.Common
import TreeWalk.Proofs.Truthful

namespace TreeWalk

/-! ### Braces and counts -/

/-- What happens to the blocks around a place. -/
inductive BlockEvent where
  /-- A block is opened. -/
  | opened
  /-- The block that was opened last is closed. -/
  | closed
deriving DecidableEq, Repr

namespace BlockEvent

/-- The number of open blocks behind some events, from the number in front of them.  It is `none`
if a block is closed when none is open. -/
def openAfter? : Nat → List BlockEvent → Option Nat
  | k, [] => some k
  | k, opened :: es => openAfter? (k + 1) es
  | 0, closed :: _ => none
  | k + 1, closed :: es => openAfter? k es

variable {j k : Nat} {es fs : List BlockEvent}

lemma openAfter?_append (h : openAfter? j es = some k) :
    openAfter? j (es ++ fs) = openAfter? k fs := by
  induction j, es using openAfter?.induct with
  | case1 j =>
    cases h
    rfl
  | case2 j es ih => exact ih h
  | case3 es => cases h
  | case4 j es ih => exact ih h

/-- With more blocks open in front, as many more are open behind. -/
lemma openAfter?_add (h : openAfter? j es = some k) (i : Nat) :
    openAfter? (i + j) es = some (i + k) := by
  induction j, es using openAfter?.induct with
  | case1 j =>
    cases h
    rfl
  | case2 j es ih => exact ih h
  | case3 es => cases h
  | case4 j es ih => exact ih h

end BlockEvent

/-- What a token that is read does to the blocks. -/
def Token.event? : Token → Option BlockEvent
  | .symbol .leftBrace => some .opened
  | .symbol .rightBrace => some .closed
  | _ => none

/-- What tokens that are read do to the blocks. -/
def Token.events (ts : List Token) : List BlockEvent :=
  ts.filterMap event?

/-- A way to count open blocks. -/
structure Count where
  /-- The count behind a place where a block is opened. -/
  opened : Nat → Nat
  /-- The count behind a place where a block is closed. -/
  closed : Nat → Nat

namespace Count

/-- The count goes up and down by one. -/
def usual : Count where
  opened d := d + 1
  closed d := d - 1

/-- The count behind an event. -/
def behind (n : Count) (d : Nat) : BlockEvent → Nat
  | .opened => n.opened d
  | .closed => n.closed d

/-- The count behind some events. -/
def after (n : Count) (d : Nat) (es : List BlockEvent) : Nat :=
  es.foldl n.behind d

variable {n : Count} {d j k : Nat} {es : List BlockEvent}

@[simp] lemma after_append {fs : List BlockEvent} :
    n.after d (es ++ fs) = n.after (n.after d es) fs :=
  List.foldl_append

/-- The usual count is right as long as no block is closed that is not open. -/
lemma usual_after (h : BlockEvent.openAfter? j es = some k) : usual.after (d + j) es = d + k := by
  induction j, es using BlockEvent.openAfter?.induct with
  | case1 j =>
    cases h
    rfl
  | case2 j es ih => exact ih h
  | case3 es => cases h
  | case4 j es ih => exact ih h

/-! ### The grammar with a count -/

section Grammar

open TreeWalk.Parser

variable (n : Count) (p : Parts)

/-- Enter a block. -/
def enter : Parser Unit := fun c =>
  ⟨.ok (), { c with depth := n.opened c.depth }, []⟩

/-- Leave a block. -/
def leave : Parser Unit := fun c =>
  ⟨.ok (), { c with depth := n.closed c.depth }, []⟩

/-- The statements of a block and the brace that closes it; the number bounds their number. -/
def statements : Nat → Parser (List Statement)
  | 0 => Grammar.unclosed
  | m + 1 => do
    match ← peek with
    | .symbol .rightBrace =>
      next
      n.leave
      return []
    | .endOfInput => Grammar.unclosed
    | _ =>
      let s ← Grammar.statement p
      let ss ← statements m
      return s :: ss

/-- A block behind its first token. -/
def body : Parser (List Statement) := do
  n.enter
  n.statements p (← unread)

/-- A block. -/
def block : Parser (List Statement) := do
  expect (.symbol .leftBrace)
  n.body p

/-- A conditional. -/
def conditional : Parser Expression := do
  next
  expect (.symbol .leftParen)
  let condition ← p.expression .lowest
  expect (.symbol .rightParen)
  let consequence ← n.block p
  if (← peek) = .keyword .elseWord then
    next
    let alternative ← n.block p
    return .ifElse condition consequence alternative
  else
    return .ifThen condition consequence

/-- A function. -/
def function : Parser Expression := do
  next
  expect (.symbol .leftParen)
  let parameters ← items Grammar.parameter
  let body ← n.block p
  return .function parameters body

/-- An operand.  Those that have no block of their own are not concerned. -/
def operand : Parser Expression := do
  match ← peek with
  | .keyword .ifWord => n.conditional p
  | .keyword .fnWord => n.function p
  | .symbol .leftBrace =>
    let body ← n.block p
    return .block body
  | _ => Grammar.operand p

/-- An expression above a level. -/
def expression (level : Level) : Parser Expression :=
  called .expression do
    let left ← n.operand p
    Grammar.continued p level (← unread) left

/-- The parsers for the parts of any text of so many tokens. -/
def parts : Nat → Parts
  | 0 => .ofDepth 0
  | k + 1 =>
    { expression := n.expression (parts k)
      block := n.block (parts k) }

end Grammar

/-! ### The usual count is that of the grammar -/

lemma usual_statements (p : Parts) (m : Nat) : usual.statements p m = Grammar.statements p m := by
  induction m with
  | zero => rfl
  | succ m ih =>
    rw [statements, Grammar.statements, ih]
    rfl

lemma usual_block (p : Parts) : usual.block p = Grammar.block p := by
  simp only [block, body, usual_statements]
  rfl

lemma usual_operand (p : Parts) : usual.operand p = Grammar.operand p := by
  funext c
  have hconditional : usual.conditional p = Grammar.conditional p := by
    rw [conditional, usual_block]
    rfl
  have hfunction : usual.function p = Grammar.function p := by
    rw [function, usual_block]
    rfl
  rw [operand, Parser.peek_bind, Grammar.operand, hconditional, hfunction, usual_block,
    Parser.peek_bind]
  cases hc : c.peek with
  | keyword w => cases w <;> first | rfl | simp [hc]
  | symbol s => cases s <;> first | rfl | simp [hc]
  | illegal c | endOfInput | ident x | int x => simp [hc]

theorem usual_parts (k : Nat) : usual.parts k = .ofDepth k := by
  induction k with
  | zero => rfl
  | succ k ih =>
    have hexpression : usual.expression (.ofDepth k) = Grammar.expression (.ofDepth k) := by
      funext lv
      rw [expression, usual_operand]
      rfl
    rw [parts, ih, hexpression, usual_block]
    rfl

end Count

/-! ### Places with another count -/

/-- The place with another count of open blocks. -/
def Cursor.recount (c : Cursor) (d : Nat) : Cursor :=
  { c with depth := d }

/-- The outcome with another count of open blocks where reading stopped. -/
def Outcome.recount {α : Type} (o : Outcome α) (d : Nat) : Outcome α :=
  { o with cursor := o.cursor.recount d }

namespace Cursor

variable {c : Cursor} {d : Nat}

@[simp] lemma recount_depth (c : Cursor) : c.recount c.depth = c := rfl

@[simp] lemma recount_recount {e : Nat} : (c.recount d).recount e = c.recount e := rfl

@[simp] lemma peek_recount : (c.recount d).peek = c.peek := rfl

end Cursor

/-! ### Parsers that keep count -/

/-- The tokens `ts` are all that was read from the place `c` on, except that an error may name one
more token, which was read last. -/
def Outcome.Reads {α : Type} (o : Outcome α) (c : Cursor) (ts : List Token) : Prop :=
  c.rest = ts ++ o.cursor.rest ∨
    ∃ e, o.result = .error e ∧ c.rest = ts ++ e.found :: o.cursor.rest

/-- A token that is no brace is read, or the end of the input. -/
lemma Cursor.exists_rest_eq (c : Cursor) (ht : c.peek.event? = none) :
    ∃ us, Token.events us = [] ∧ c.rest = us ++ c.next.rest := by
  obtain ⟨last, rest, d⟩ := c
  cases rest with
  | nil => exact ⟨[], rfl, rfl⟩
  | cons t rest => exact ⟨[t], by simp [Token.events, show t.event? = none from ht], rfl⟩

lemma Outcome.Reads.behind {α : Type} {o : Outcome α} {c c₁ : Cursor} {ts us : List Token}
    (h : o.Reads c₁ ts) (hc : c.rest = us ++ c₁.rest) : o.Reads c (us ++ ts) := by
  rcases h with h | ⟨e, he, h⟩
  · exact Or.inl (by rw [hc, h, List.append_assoc])
  · exact Or.inr ⟨e, he, by rw [hc, h, List.append_assoc]⟩

namespace Parser

open TreeWalk.Token TreeWalk.BlockEvent

variable {α β : Type}

/-- A parser that is given the way of counting ends at the place `c` with the outcome `o` however
blocks are counted, and what becomes of the count can be told from the tokens `ts` that it read.
They leave `k` blocks open if `j` were open in front, and close none that is not open. -/
structure Tallies (j : Nat) (c : Cursor) (q : Count → Parser α) (o : Outcome α) (ts : List Token)
    (k : Nat) : Prop where
  run : ∀ n d, q n (c.recount d) = o.recount (n.after d (events ts))
  reads : o.Reads c ts
  opened : openAfter? j (events ts) = some k
  closed : ∀ a, o.result = .ok a → k = 0

/-- A parser that is given the way of counting keeps the count at the place `c`, where `j` blocks
are open that it is to close. -/
def Keeps (j : Nat) (c : Cursor) (q : Count → Parser α) : Prop :=
  ∃ o ts k, Tallies j c q o ts k

variable {c : Cursor} {i j k k' : Nat} {q : Count → Parser α} {f : Count → α → Parser β} {t : Token}
  {o : Outcome α} {o' : Outcome β} {ts us : List Token} {a : α} {e : ParseError}

lemma events_append : events (ts ++ us) = events ts ++ events us :=
  List.filterMap_append

lemma keeps_pure (a : α) : Keeps 0 c fun _ => (pure a : Parser α) :=
  ⟨⟨.ok a, c, []⟩, [], 0, fun _ _ => rfl, Or.inl rfl, rfl, fun _ _ => rfl⟩

lemma keeps_fail (e : ParseError) : Keeps j c fun _ => (fail e : Parser α) :=
  ⟨⟨.error e, c, []⟩, [], j, fun _ _ => rfl, Or.inl rfl, rfl, fun _ h => by cases h⟩

/-- The parser with the usual count. -/
lemma Tallies.ends (h : Tallies j c q o ts k) :
    (q .usual).Ends c o.result (o.cursor.recount (Count.usual.after c.depth (events ts))) := by
  have hrun := h.run .usual c.depth
  rw [Cursor.recount_depth] at hrun
  rw [Ends, hrun]
  exact ⟨rfl, rfl⟩

lemma Tallies.rest_eq (h : Tallies j c q o ts k) (ho : o.result = .ok a) :
    c.rest = ts ++ o.cursor.rest := by
  rcases h.reads with hrest | ⟨e, he, -⟩
  · exact hrest
  · rw [ho] at he
    cases he

lemma Tallies.bind_error (h : Tallies i c q o ts k) (ho : o.result = .error e) :
    Tallies (j + i) c (fun n => q n >>= f n) ⟨.error e, o.cursor, o.calls⟩ ts (j + k) where
  run n d := by
    have hrun : q n (c.recount d) =
        ⟨.error e, o.cursor.recount (n.after d (events ts)), o.calls⟩ := by
      rw [h.run n d, ← ho]
      rfl
    exact bind_of_error hrun
  reads := by
    rcases h.reads with hrest | ⟨e', he', hrest⟩
    · exact Or.inl hrest
    · obtain rfl := Except.error.inj (ho.symm.trans he')
      exact Or.inr ⟨e, rfl, hrest⟩
  opened := openAfter?_add h.opened j
  closed := fun _ h => by cases h

lemma Tallies.bind_ok (h : Tallies i c q o ts k) (ho : o.result = .ok a)
    (h' : Tallies j o.cursor (fun n => f n a) o' us k') :
    Tallies (j + i) c (fun n => q n >>= f n) ⟨o'.result, o'.cursor, o.calls ++ o'.calls⟩ (ts ++ us)
      k' where
  run n d := by
    have hrun : q n (c.recount d) = ⟨.ok a, o.cursor.recount (n.after d (events ts)), o.calls⟩ := by
      rw [h.run n d, ← ho]
      rfl
    have hrun' := h'.run n (n.after d (events ts))
    rw [events_append, Count.after_append]
    exact (bind_of_ok hrun).trans (by rw [hrun']; rfl)
  reads := by
    exact h'.reads.behind (h.rest_eq ho)
  opened := by
    obtain rfl := h.closed a ho
    have hopened : openAfter? (j + i) (events ts) = some j := openAfter?_add h.opened j
    rw [events_append, openAfter?_append hopened]
    exact h'.opened
  closed := h'.closed

lemma Keeps.bind (hq : Keeps i c q)
    (hf : ∀ a c₁, (q .usual).Ends c (.ok a) c₁ → Keeps j c₁ fun n => f n a) :
    Keeps (j + i) c fun n => q n >>= f n := by
  obtain ⟨o, ts, k, h⟩ := hq
  rcases ho : o.result with e | a
  · exact ⟨_, _, _, h.bind_error ho⟩
  · obtain ⟨o', us, k', h'⟩ := hf a _ (ho ▸ h.ends)
    -- the count at the place between the two does not matter
    exact ⟨_, _, _, h.bind_ok ho ⟨h'.run, h'.reads, h'.opened, h'.closed⟩⟩

/-! ### Steps -/

lemma Keeps.congr {q' : Count → Parser α} (h : Keeps j c q')
    (hq : ∀ n d, q n (c.recount d) = q' n (c.recount d)) : Keeps j c q := by
  obtain ⟨o, ts, k, h⟩ := h
  exact ⟨o, ts, k, fun n d => (hq n d).trans (h.run n d), h.reads, h.opened, h.closed⟩

lemma Keeps.called {x : Routine} (h : Keeps j c q) : Keeps j c fun n => called x (q n) := by
  obtain ⟨o, ts, k, h⟩ := h
  refine ⟨{ o with calls := [.mk x c.peek o.calls] }, ts, k, fun n d => ?_, h.reads, h.opened,
    h.closed⟩
  rw [called_apply, h.run n d]
  rfl

lemma Keeps.peek_bind {f : Count → Token → Parser β} (h : Keeps j c fun n => f n c.peek) :
    Keeps j c fun n => peek >>= f n :=
  h.congr fun _ _ => rfl

lemma Keeps.unread_bind {f : Count → Nat → Parser β} (h : Keeps j c fun n => f n c.rest.length) :
    Keeps j c fun n => unread >>= f n :=
  h.congr fun _ _ => rfl

lemma Keeps.ite {P : Prop} [Decidable P] {q' : Count → Parser α} (h : P → Keeps j c q)
    (h' : ¬ P → Keeps j c q') : Keeps j c fun n => if P then q n else q' n := by
  by_cases hP : P
  · exact (h hP).congr fun _ _ => by rw [if_pos hP]
  · exact (h' hP).congr fun _ _ => by rw [if_neg hP]

/-- A token that is no brace is read. -/
lemma Keeps.next_bind {f : Count → Unit → Parser β} (hc : c.peek = t) (ht : t.event? = none)
    (h : Keeps j c.next fun n => f n ()) : Keeps j c fun n => next >>= f n := by
  obtain ⟨o, ts, k, h⟩ := h
  obtain ⟨us, hus, hrest⟩ := c.exists_rest_eq (hc ▸ ht)
  refine ⟨o, us ++ ts, k, fun n d => ?_, h.reads.behind hrest, ?_, h.closed⟩
  · rw [events_append, hus]
    exact h.run n d
  · rw [events_append, hus]
    exact h.opened

/-- A block is opened by a brace. -/
lemma Keeps.enter_bind {f : Count → Unit → Parser β} (hc : c.peek = .symbol .leftBrace)
    (h : Keeps (j + 1) c.next fun n => f n ()) :
    Keeps j c fun n => next >>= fun _ => n.enter >>= f n := by
  obtain ⟨o, ts, k, h⟩ := h
  have hrest : c.rest = [.symbol .leftBrace] ++ c.next.rest := c.rest_of_peek hc (by simp)
  exact ⟨o, .symbol .leftBrace :: ts, k, fun n d => h.run n (n.opened d), h.reads.behind hrest,
    h.opened, h.closed⟩

/-- A block is closed by a brace. -/
lemma Keeps.leave_bind {f : Count → Unit → Parser β} (hc : c.peek = .symbol .rightBrace)
    (h : Keeps j c.next fun n => f n ()) :
    Keeps (j + 1) c fun n => next >>= fun _ => n.leave >>= f n := by
  obtain ⟨o, ts, k, h⟩ := h
  have hrest : c.rest = [.symbol .rightBrace] ++ c.next.rest := c.rest_of_peek hc (by simp)
  exact ⟨o, .symbol .rightBrace :: ts, k, fun n d => h.run n (n.closed d), h.reads.behind hrest,
    h.opened, h.closed⟩

/-- The token in front is read and blamed. -/
lemma keeps_next_fail (he : e.found = c.peek) :
    Keeps j c fun _ => (next >>= fun _ => fail e : Parser α) := by
  by_cases hc : c.peek = .endOfInput
  · exact .next_bind hc rfl (keeps_fail e)
  · refine ⟨⟨.error e, c.next, []⟩, [], j, fun _ _ => rfl, Or.inr ⟨e, rfl, ?_⟩, rfl,
      fun _ h => by cases h⟩
    rw [he]
    exact Cursor.rest_of_peek rfl hc

/-! ### Small parsers -/

section Expect

variable {g : Unit → Parser β}

lemma expect_bind_of_eq (hc : c.peek = t) : (expect t >>= g) c = (next >>= g) c := by
  refine bind_of_ok ?_
  rw [expect, peek_bind, if_pos hc]
  rfl

lemma expect_bind_of_ne (hc : c.peek ≠ t) :
    (expect t >>= g) c = ⟨.error (.expected t c.peek), c, []⟩ := by
  refine bind_of_error ?_
  rw [expect, peek_bind, if_neg hc]
  rfl

lemma skip_bind_of_eq (hc : c.peek = t) : (skip t >>= g) c = (next >>= g) c := by
  refine bind_of_ok ?_
  rw [skip, peek_bind, if_pos hc]
  rfl

lemma skip_bind_of_ne (hc : c.peek ≠ t) : (skip t >>= g) c = g () c := by
  have hskip : (skip t : Parser Unit) c = ⟨.ok (), c, []⟩ := by
    rw [skip, peek_bind, if_neg hc]
    rfl
  exact bind_of_ok hskip

end Expect

lemma Keeps.expect_bind {f : Count → Unit → Parser β}
    (h : c.peek = t → Keeps j c fun n => next >>= f n) :
    Keeps j c fun n => expect t >>= f n := by
  by_cases hc : c.peek = t
  · exact (h hc).congr fun _ _ => expect_bind_of_eq hc
  · exact (keeps_fail (.expected t c.peek)).congr fun _ _ => expect_bind_of_ne hc

lemma Keeps.skip_bind {f : Count → Unit → Parser β} (ht : t.event? = none)
    (h : ∀ c, Keeps j c fun n => f n ()) : Keeps j c fun n => skip t >>= f n := by
  by_cases hc : c.peek = t
  · exact (Keeps.next_bind hc ht (h c.next)).congr fun _ _ => skip_bind_of_eq hc
  · exact (h c).congr fun _ _ => skip_bind_of_ne hc

lemma moreItems_keeps (hq : ∀ c, Keeps 0 c q) (m : Nat) (c : Cursor) :
    Keeps 0 c fun n => moreItems (q n) m := by
  induction m generalizing c with
  | zero => exact keeps_pure []
  | succ m ih =>
    refine .peek_bind (.ite (fun hc => .next_bind hc rfl ?_) fun _ => keeps_pure [])
    exact (hq _).bind fun a c₁ _ => (ih c₁).bind fun as c₂ _ => keeps_pure (a :: as)

lemma items_keeps (hq : ∀ c, Keeps 0 c q) (c : Cursor) : Keeps 0 c fun n => items (q n) := by
  refine .peek_bind (.ite (fun hc => .next_bind hc rfl (keeps_pure [])) fun _ => ?_)
  refine (hq c).bind fun a c₁ _ => .unread_bind ((moreItems_keeps hq _ c₁).bind fun as c₂ _ => ?_)
  exact .expect_bind fun hc₂ => .next_bind hc₂ rfl (keeps_pure (a :: as))

end Parser

/-- The parsers for parts, given the way of counting, keep the count.  With the usual count they
give only what stands in the text. -/
structure Count.PartsKeep (p : Count → Parts) : Prop where
  expression : ∀ lv c, Parser.Keeps 0 c fun n => (p n).expression lv
  block : ∀ c, Parser.Keeps 0 c fun n => (p n).block
  sound : (p .usual).Sound

namespace Count

open TreeWalk.Parser

variable {p : Count → Parts} {c : Cursor}

/-! ### Statements and blocks -/

lemma ended_keeps {q : Count → Parser Expression} (f : Expression → Statement)
    (hq : Keeps 0 c q) :
    Keeps 0 c fun n => q n >>= fun e => skip (.symbol .semicolon) >>= fun _ => pure (f e) :=
  hq.bind fun e _ _ => .skip_bind rfl fun _ => keeps_pure (f e)

lemma binding_keeps (hp : PartsKeep p) (hc : c.peek = .keyword .letWord) :
    Keeps 0 c fun n => Grammar.binding (p n) := by
  refine .next_bind hc rfl (.peek_bind ?_)
  cases hname : c.next.peek with
  | ident name =>
    refine .next_bind hname rfl (.expect_bind fun hassign => .next_bind hassign rfl ?_)
    exact ended_keeps (.binding name) (hp.expression _ _)
  | _ => exact keeps_fail _

lemma statement_keeps (hp : PartsKeep p) (c : Cursor) :
    Keeps 0 c fun n => Grammar.statement (p n) := by
  have hexpression : Keeps 0 c fun n =>
      called .expressionStatement (Grammar.expressionStatement (p n)) :=
    (ended_keeps .expression (hp.expression _ c)).called
  refine .called (.peek_bind ?_)
  cases hc : c.peek with
  | keyword w =>
    cases w with
    | letWord => exact binding_keeps hp hc
    | returnWord => exact .next_bind hc rfl (ended_keeps .returning (hp.expression _ _))
    | _ => exact hexpression
  | symbol s =>
    cases s with
    | leftBrace =>
      exact (hp.block c).bind fun body _ _ => .skip_bind rfl fun _ => keeps_pure _
    | _ => exact hexpression
  | _ => exact hexpression

lemma statements_keeps (hp : PartsKeep p) {m : Nat} (hm : c.rest.length ≤ m) :
    Keeps 1 c fun n => n.statements (p n) m := by
  induction m generalizing c with
  | zero => exact keeps_next_fail (Cursor.peek_of_length_eq_zero (Nat.le_zero.1 hm)).symm
  | succ m ih =>
    have hmore : Keeps 1 c fun n => Grammar.statement (p n) >>= fun s =>
        n.statements (p n) m >>= fun ss => pure (s :: ss) := by
      refine (statement_keeps hp c).bind fun s c₁ hs => ?_
      have hlt := (Grammar.statement_sound hp.sound hs).length_lt
      exact (ih (by omega)).bind fun ss _ _ => keeps_pure (s :: ss)
    refine .peek_bind ?_
    cases hc : c.peek with
    | endOfInput => exact keeps_next_fail hc.symm
    | symbol s =>
      cases s with
      | rightBrace => exact .leave_bind hc (keeps_pure [])
      | _ => exact hmore
    | _ => exact hmore

lemma block_keeps (hp : PartsKeep p) (c : Cursor) : Keeps 0 c fun n => n.block (p n) :=
  .expect_bind fun hc => .enter_bind hc (.unread_bind (statements_keeps hp (Nat.le_refl _)))

/-! ### Operands -/

lemma conditional_keeps (hp : PartsKeep p) (hc : c.peek = .keyword .ifWord) :
    Keeps 0 c fun n => n.conditional (p n) := by
  refine .next_bind hc rfl (.expect_bind fun hopen => .next_bind hopen rfl ?_)
  refine (hp.expression _ _).bind fun condition c₁ _ => ?_
  refine .expect_bind fun hclose => .next_bind hclose rfl ?_
  refine (block_keeps hp _).bind fun consequence c₂ _ => .peek_bind (.ite (fun helse => ?_) ?_)
  · exact .next_bind helse rfl ((block_keeps hp _).bind fun _ _ _ => keeps_pure _)
  · exact fun _ => keeps_pure _

lemma parameter_keeps (c : Cursor) : Keeps 0 c fun _ => Grammar.parameter := by
  refine .peek_bind ?_
  cases hc : c.peek with
  | ident name => exact .next_bind hc rfl (keeps_pure name)
  | _ => exact keeps_next_fail hc.symm

lemma function_keeps (hp : PartsKeep p) (hc : c.peek = .keyword .fnWord) :
    Keeps 0 c fun n => n.function (p n) := by
  refine .next_bind hc rfl (.expect_bind fun hopen => .next_bind hopen rfl ?_)
  refine (items_keeps parameter_keeps _).bind fun parameters c₁ _ => ?_
  exact (block_keeps hp c₁).bind fun _ _ _ => keeps_pure _

lemma integer_keeps {digits : String} (hc : c.peek = .int digits) :
    Keeps 0 c fun _ => Grammar.integer digits := by
  rw [Grammar.integer]
  split
  · exact .next_bind hc rfl (keeps_pure _)
  · exact keeps_next_fail hc.symm

lemma noOperand_keeps (c : Cursor) : Keeps 0 c fun _ => Grammar.noOperand :=
  .peek_bind (keeps_next_fail rfl)

lemma unary_keeps (hp : PartsKeep p) (op : UnaryOp) (hc : c.peek = .symbol op.sign) :
    Keeps 0 c fun n => Grammar.unary (p n) op :=
  .next_bind hc (by cases op <;> rfl) ((hp.expression _ _).bind fun _ _ _ => keeps_pure _)

lemma grouped_keeps (hp : PartsKeep p) (hc : c.peek = .symbol .leftParen) :
    Keeps 0 c fun n => Grammar.grouped (p n) := by
  refine .next_bind hc rfl ((hp.expression _ _).bind fun e c₁ _ => ?_)
  exact .expect_bind fun hclose => .next_bind hclose rfl (keeps_pure e)

/-- An operand that has no block of its own. -/
lemma plainOperand_keeps (hp : PartsKeep p) (c : Cursor) (hif : c.peek ≠ .keyword .ifWord)
    (hfn : c.peek ≠ .keyword .fnWord) (hbrace : c.peek ≠ .symbol .leftBrace) :
    Keeps 0 c fun n => Grammar.operand (p n) := by
  refine .peek_bind ?_
  cases hc : c.peek with
  | ident name => exact .next_bind hc rfl (keeps_pure _)
  | int digits => exact (integer_keeps hc).called
  | keyword w =>
    cases w with
    | trueWord | falseWord => exact .next_bind hc rfl (keeps_pure _)
    | ifWord => exact absurd hc hif
    | fnWord => exact absurd hc hfn
    | _ => exact noOperand_keeps c
  | symbol s =>
    cases s with
    | bang => exact (unary_keeps hp .not hc).called
    | minus => exact (unary_keeps hp .negate hc).called
    | leftParen => exact grouped_keeps hp hc
    | leftBrace => exact absurd hc hbrace
    | _ => exact noOperand_keeps c
  | _ => exact noOperand_keeps c

lemma operand_keeps (hp : PartsKeep p) (c : Cursor) : Keeps 0 c fun n => n.operand (p n) := by
  have hplain := plainOperand_keeps hp c
  refine .peek_bind ?_
  cases hc : c.peek with
  | keyword w =>
    cases w with
    | ifWord => exact conditional_keeps hp hc
    | fnWord => exact function_keeps hp hc
    | _ => exact hplain (by simp [hc]) (by simp [hc]) (by simp [hc])
  | symbol s =>
    cases s with
    | leftBrace => exact (block_keeps hp c).bind fun _ _ _ => keeps_pure _
    | _ => exact hplain (by simp [hc]) (by simp [hc]) (by simp [hc])
  | _ => exact hplain (by simp [hc]) (by simp [hc]) (by simp [hc])

/-! ### Operators and calls -/

lemma continuation_keeps (hp : PartsKeep p) (left : Expression) {x : Continuation}
    (hx : Continuation.ofToken? c.peek = some x) :
    Keeps 0 c fun n => Grammar.continuation (p n) left x := by
  cases x with
  | operator op =>
    have hc : c.peek = .symbol op.sign := Continuation.eq_sign_of_ofToken? hx
    have hsign : (Token.symbol op.sign).event? = none := by cases op <;> rfl
    exact .called (.next_bind hc hsign ((hp.expression _ _).bind fun _ _ _ => keeps_pure _))
  | arguments =>
    have hc : c.peek = .symbol .leftParen := Continuation.eq_leftParen_of_ofToken? hx
    exact .next_bind hc rfl ((items_keeps (hp.expression _) _).bind fun _ _ _ => keeps_pure _)

lemma continued_keeps (hp : PartsKeep p) (lv : Level) (m : Nat) (left : Expression) (c : Cursor) :
    Keeps 0 c fun n => Grammar.continued (p n) lv m left := by
  induction m generalizing left c with
  | zero => exact keeps_pure left
  | succ m ih =>
    refine .peek_bind ?_
    cases hx : Continuation.ofToken? c.peek with
    | none => exact keeps_pure left
    | some x =>
      refine .ite (fun _ => ?_) fun _ => keeps_pure left
      exact (continuation_keeps hp left hx).bind fun e c₁ _ => ih e c₁

lemma expression_keeps (hp : PartsKeep p) (lv : Level) (c : Cursor) :
    Keeps 0 c fun n => n.expression (p n) lv :=
  .called ((operand_keeps hp c).bind fun left c₁ _ => .unread_bind (continued_keeps hp lv _ left c₁))

/-- The parsers for the parts of any text keep the count. -/
theorem partsKeep (k : Nat) : PartsKeep fun n => n.parts k := by
  have hsound : (usual.parts k).Sound := usual_parts k ▸ Parts.sound_ofDepth k
  induction k with
  | zero => exact ⟨fun _ c => (noOperand_keeps c).called, fun _ => keeps_fail _, hsound⟩
  | succ k ih =>
    have hp := ih (usual_parts k ▸ Parts.sound_ofDepth k)
    exact ⟨expression_keeps hp, block_keeps hp, hsound⟩

end Count
/-! ### Calls and readings -/

/-- A block behind its first token, which nobody looks at. -/
def Grammar.body (p : Parts) : Parser (List Statement) := do
  Parser.enter
  statements p (← Parser.unread)

namespace Parser

open TreeWalk.Token TreeWalk.BlockEvent

/-- The parser `p` counts open blocks at the place `c`, and `q` is the same parser with the way of
counting left open.  However blocks are counted, the outcome is that of `p`; the count is changed by
the events `first` and then by the braces among the tokens that are read, in their order.  No block
is closed when none is open that was opened on the way, and the usual count grows by the number of
those that are not closed.  If the parser gives something, all are closed. -/
def CountsBlocks {α : Type} (first : List BlockEvent) (q : Count → Parser α) (p : Parser α)
    (c : Cursor) : Prop :=
  q .usual = p ∧ ∃ ts left,
    (∀ n d, q n (c.recount d) = (p c).recount (n.after d (first ++ events ts))) ∧
    (p c).Reads c ts ∧ openAfter? 0 (first ++ events ts) = some left ∧
    (p c).cursor.depth = c.depth + left ∧ ∀ a, (p c).result = .ok a → left = 0

variable {α : Type} {c : Cursor} {j : Nat} {q : Count → Parser α} {p : Parser α}
  {first : List BlockEvent}

/-- A parser that keeps the count behind some events counts blocks together with them. -/
lemma Keeps.countsBlocks {q' : Count → Parser α} (h : Keeps j c q) (hp : q' .usual = p)
    (hfirst : openAfter? 0 first = some j)
    (hq : ∀ n d, q' n (c.recount d) = q n (c.recount (n.after d first))) :
    CountsBlocks first q' p c := by
  obtain ⟨o, ts, left, h⟩ := h
  have hrun : ∀ n d, q' n (c.recount d) = o.recount (n.after d (first ++ events ts)) := by
    intro n d
    rw [hq, h.run, Count.after_append]
  have hopen : openAfter? 0 (first ++ events ts) = some left := by
    rw [openAfter?_append hfirst]
    exact h.opened
  have hpc : p c = o.recount (c.depth + left) := by
    rw [← hp, ← Count.usual_after hopen]
    exact hrun .usual c.depth
  refine ⟨hp, ts, left, fun n d => ?_, ?_, hopen, ?_, ?_⟩
  · rw [hrun, hpc]
    rfl
  · rw [hpc]
    exact h.reads
  · rw [hpc]
    rfl
  · rw [hpc]
    exact h.closed

end Parser

open TreeWalk.Parser in
/-- Open blocks are counted right.  This is so at every place and for every call of the parsers for
a statement, for a block and for an expression above any level, and also if the token in front of a
block is not the brace that opens it.  And no block is open in front of any statement of a program,
nor behind the last one, over any text, with any number of tokens skipped in front, whatever errors
there were and whatever was asked before. -/
theorem blocks_counted :
    (∀ (c : Cursor) (k : Nat),
      CountsBlocks [] (fun n => Grammar.statement (n.parts k)) (Grammar.statement (.ofDepth k)) c ∧
      CountsBlocks [] (fun n => (n.parts k).block) (Parts.ofDepth k).block c ∧
      CountsBlocks [.opened] (fun n => n.body (n.parts k)) (Grammar.body (.ofDepth k)) c ∧
      ∀ lv, CountsBlocks [] (fun n => (n.parts k).expression lv)
        ((Parts.ofDepth k).expression lv) c) ∧
    ∀ (source : String) (m : Nat) (steps : List Session.Step),
      let s := (Session.ofText (Token.skipped m source.toList)).after steps
      (∀ ss es c, Reading.Visits (.ofDepth s.cursor.rest.length) s.cursor ss es c → c.depth = 0) ∧
        s.readProgram.2.cursor.depth = 0 := by
  constructor
  · intro c k
    have hp := Count.partsKeep k
    have hparts := Count.usual_parts k
    refine ⟨?_, ?_, ?_, fun lv => ?_⟩
    · exact (Count.statement_keeps hp c).countsBlocks (by rw [hparts]) rfl fun _ _ => rfl
    · exact (hp.block c).countsBlocks (by rw [hparts]) rfl fun _ _ => rfl
    · have hbody : Count.usual.body (Count.usual.parts k) = Grammar.body (.ofDepth k) := by
        rw [hparts, Count.body, Grammar.body]
        simp only [Count.usual_statements]
        rfl
      have hstatements := Count.statements_keeps hp (Nat.le_refl c.rest.length)
      exact hstatements.countsBlocks hbody rfl fun _ _ => rfl
    · exact (hp.expression lv c).countsBlocks (by rw [hparts]) rfl fun _ _ => rfl
  · intro source m steps s
    have hsound : s.Sound source.toList := (Session.sound_ofText_skipped m source.toList).after steps
    refine ⟨fun ss es c hvisits => ?_, hsound.readProgram.depth⟩
    exact (hvisits.depth_eq (Nat.le_refl _) hsound.depth).1

/-- An error inside of two blocks leaves both of them open.  Behind the statement none is. -/
theorem blocks_counted_in_two_blocks :
    let source := "\x7b 1 \x7b let 5 \x7d \x7d; 2"
    let s := (Session.ofText (Token.skipped 0 source.toList)).after []
    let p : Parts := .ofDepth s.cursor.rest.length
    let o := Grammar.statement p s.cursor
    (∃ ts, o.Reads s.cursor ts ∧ BlockEvent.openAfter? 0 (Token.events ts) = some 2) ∧
      Reading.Visits p s.cursor [] [.expected (.ident "") (.int "5")] o.cursor.recover ∧
      o.cursor.recover.depth = 0 ∧ s.readProgram.2.cursor.depth = 0 := by
  intro source s p o
  obtain ⟨hcalls, hreadings⟩ := blocks_counted
  obtain ⟨⟨-, ts, left, -, hreads, hopen, hdepth, -⟩, -⟩ := hcalls s.cursor s.cursor.rest.length
  obtain ⟨hvisited, hend⟩ := hreadings source 0 []
  have hleft : left = 2 := by
    have htwo : o.cursor.depth = s.cursor.depth + 2 := by decide +kernel
    exact Nat.add_left_cancel (hdepth.symm.trans htwo)
  have hresult : o.result = .error (.expected (.ident "") (.int "5")) := by
    subst p s source
    cbv
  have hvisits : Reading.Visits p s.cursor [] [.expected (.ident "") (.int "5")] o.cursor.recover :=
    .refused (by decide +kernel) ⟨hresult, rfl⟩ (.refl _)
  exact ⟨⟨ts, hreads, hleft ▸ hopen⟩, hvisits, hvisited _ _ _ hvisits, hend⟩

end TreeWalk
