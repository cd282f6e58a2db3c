/-
# Where a phrase goes wrong

`Stuck w ts e` says that a phrase of the wanted kind `w` begins with the tokens `ts`, and that the
next token, which is the one the error `e` speaks of, cannot stand behind them.  Like the forms of
`TreeWalk.Proofs.Form`, this is said of tokens only, and not of the order in which anything is
read: a phrase is stuck inside one of its parts, with forms of the parts in front of it, or at one
of its own tokens.

Nothing is wrong with the tokens `ts` themselves: with others behind them they are a phrase of the
wanted kind (`Stuck.completes`).  At most one token or phrase is missing in each construct that is
open, and then the tokens that close it.
-/
import TreeWalk.Proofs.Layout
import TreeWalk.Proofs.Refusal

namespace TreeWalk

open Form

/-- The kinds of phrases that may be wanted somewhere. -/
inductive Wanted where
  /-- An expression above a level. -/
  | expression (level : Level)
  /-- An expression and the parenthesis behind it. -/
  | closed
  /-- Arguments, at least one, and the parenthesis behind them. -/
  | arguments
  /-- A block, braces included. -/
  | block
  /-- The statements of a block and the brace behind them. -/
  | statements
  /-- A statement. -/
  | statement

/-- The ways in which items with commas between them and a parenthesis behind are stuck.  `W a ts t`
says that `ts` spells the item `a` if `t` stands behind, and `S ts e` that an item is stuck. -/
inductive ListStuck {α : Type} (W : α → List Token → Token → Prop)
    (S : List Token → ParseError → Prop) : List Token → ParseError → Prop
  | item {ts : List Token} {e : ParseError} (h : S ts e) : ListStuck W S ts e
  | notClosed {a : α} {ts : List Token} {t : Token} (h : W a ts t) (hcomma : t ≠ .symbol .comma)
    (hparen : t ≠ .symbol .rightParen) :
    ListStuck W S ts (.expected (.symbol .rightParen) t)
  | further {a : α} {ts us : List Token} {e : ParseError} (h : W a ts (.symbol .comma))
    (h' : ListStuck W S us e) : ListStuck W S (ts ++ .symbol .comma :: us) e

/-- The tokens spell an argument if `t` stands behind. -/
def ArgumentSpelled (x : Expression) (ts : List Token) (t : Token) : Prop :=
  ∃ l o, Form (.expression x l o) ts ∧ ¬ t.Extends .lowest o

/-- The tokens spell the name of a parameter. -/
def ParameterSpelled (name : String) (ts : List Token) (_ : Token) : Prop :=
  ts = [.ident name]

/-- A parameter is wanted, and another token stands there. -/
def ParameterStuck (ts : List Token) (e : ParseError) : Prop :=
  ts = [] ∧ ∃ t, (∀ name, t ≠ .ident name) ∧ e = .expected (.ident "") t

/-- The tokens `ts` begin a phrase that is wanted, and the token that the error speaks of cannot
stand behind them.

* A token that could be taken into an expression does not end it, so none is missing in front of
  such a token.
* An operator or the arguments of a call stand behind a form that may be an operand there.
* The first token, be it one of `ts` or the one that cannot stand there, may tell that something
  else was wanted: no argument, no further statement, or another kind of statement. -/
inductive Stuck : Wanted → List Token → ParseError → Prop
  | noOperand {lv : Level} {t : Token} (ht : ¬ t.beginsExpression) :
    Stuck (.expression lv) [] (.noExpressionAt t)
  | tooLarge {lv : Level} {digits : String}
    (h : Integer.ofInt? (Decimal.value digits.toList) = none) :
    Stuck (.expression lv) [] (.integerTooLarge digits)
  | unary (op : UnaryOp) {lv : Level} {ts : List Token} {e : ParseError}
    (h : Stuck (.expression .unary) ts e) : Stuck (.expression lv) (.symbol op.sign :: ts) e
  | grouped {lv : Level} {ts : List Token} {e : ParseError} (h : Stuck .closed ts e) :
    Stuck (.expression lv) (.symbol .leftParen :: ts) e
  | braces {lv : Level} {ts : List Token} {e : ParseError} (h : Stuck .statements ts e) :
    Stuck (.expression lv) (.symbol .leftBrace :: ts) e
  | conditional {lv : Level} {t : Token} (ht : t ≠ .symbol .leftParen) :
    Stuck (.expression lv) [.keyword .ifWord] (.expected (.symbol .leftParen) t)
  | condition {lv : Level} {ts : List Token} {e : ParseError} (h : Stuck .closed ts e) :
    Stuck (.expression lv) (.keyword .ifWord :: .symbol .leftParen :: ts) e
  | consequence {lv : Level} {c : Expression} {l : Level} {o : Bool} {ts us : List Token}
    {e : ParseError} (h : Form (.expression c l o) ts) (h' : Stuck .block us e) :
    Stuck (.expression lv) (.keyword .ifWord :: (inParens ts ++ us)) e
  | alternative {lv : Level} {c : Expression} {t : List Statement} {l : Level} {o : Bool}
    {ts us vs : List Token} {e : ParseError} (h : Form (.expression c l o) ts)
    (ht : Form (.statements t) us) (h' : Stuck .block vs e) :
    Stuck (.expression lv)
      (.keyword .ifWord :: (inParens ts ++ inBraces us ++ .keyword .elseWord :: vs)) e
  | function {lv : Level} {t : Token} (ht : t ≠ .symbol .leftParen) :
    Stuck (.expression lv) [.keyword .fnWord] (.expected (.symbol .leftParen) t)
  | parameters {lv : Level} {ts : List Token} {e : ParseError}
    (h : ListStuck ParameterSpelled ParameterStuck ts e)
    (hts : ts.headD e.found ≠ .symbol .rightParen) :
    Stuck (.expression lv) (.keyword .fnWord :: .symbol .leftParen :: ts) e
  | body (names : List String) {lv : Level} {ts : List Token} {e : ParseError}
    (h : Stuck .block ts e) :
    Stuck (.expression lv) (.keyword .fnWord :: (inParens (Form.parameters names) ++ ts)) e
  | operator (op : BinaryOp) {lv : Level} {left : Expression} {l : Level} {o : Bool}
    {ts us : List Token} {e : ParseError} (hlv : lv < op.level) (hl : op.level ≤ l)
    (h : Form (.expression left l o) ts) (h' : Stuck (.expression op.level) us e) :
    Stuck (.expression lv) (ts ++ .symbol op.sign :: us) e
  | call {lv : Level} {f : Expression} {o : Bool} {ts us : List Token} {e : ParseError}
    (h : Form (.expression f .call o) ts) (h' : Stuck .arguments us e)
    (hus : us.headD e.found ≠ .symbol .rightParen) :
    Stuck (.expression lv) (ts ++ .symbol .leftParen :: us) e
  | inside {ts : List Token} {e : ParseError} (h : Stuck (.expression .lowest) ts e) :
    Stuck .closed ts e
  | notClosed {x : Expression} {l : Level} {o : Bool} {ts : List Token} {t : Token}
    (h : Form (.expression x l o) ts) (hstop : ¬ t.Extends .lowest o)
    (hparen : t ≠ .symbol .rightParen) : Stuck .closed ts (.expected (.symbol .rightParen) t)
  | argument {ts : List Token} {e : ParseError} (h : Stuck (.expression .lowest) ts e) :
    Stuck .arguments ts e
  | argumentsNotClosed {x : Expression} {l : Level} {o : Bool} {ts : List Token} {t : Token}
    (h : Form (.expression x l o) ts) (hstop : ¬ t.Extends .lowest o)
    (hcomma : t ≠ .symbol .comma) (hparen : t ≠ .symbol .rightParen) :
    Stuck .arguments ts (.expected (.symbol .rightParen) t)
  | furtherArgument {x : Expression} {l : Level} {o : Bool} {ts us : List Token} {e : ParseError}
    (h : Form (.expression x l o) ts) (h' : Stuck .arguments us e) :
    Stuck .arguments (ts ++ .symbol .comma :: us) e
  | notOpened {t : Token} (ht : t ≠ .symbol .leftBrace) :
    Stuck .block [] (.expected (.symbol .leftBrace) t)
  | opened {ts : List Token} {e : ParseError} (h : Stuck .statements ts e) :
    Stuck .block (.symbol .leftBrace :: ts) e
  | unclosed : Stuck .statements [] (.expected (.symbol .rightBrace) .endOfInput)
  | next {ts : List Token} {e : ParseError} (h : Stuck .statement ts e)
    (hend : ts.headD e.found ≠ .endOfInput) (hbrace : ts.headD e.found ≠ .symbol .rightBrace) :
    Stuck .statements ts e
  | ended {s : Statement} {o : Bool} {ts us : List Token} {e : ParseError}
    (h : Form (.statement s o) ts) (h' : Stuck .statements us e) :
    Stuck .statements (ts ++ .symbol .semicolon :: us) e
  | unended {s : Statement} {o : Bool} {ts us : List Token} {e : ParseError}
    (h : Form (.statement s o) ts) (h' : Stuck .statements us e)
    (hsemi : us.headD e.found ≠ .symbol .semicolon)
    (hstop : s.isBlock ∨ ¬ (us.headD e.found).Extends .lowest o) :
    Stuck .statements (ts ++ us) e
  | bindingName {t : Token} (ht : ∀ name, t ≠ .ident name) :
    Stuck .statement [.keyword .letWord] (.expected (.ident "") t)
  | bindingSign (name : String) {t : Token} (ht : t ≠ .symbol .assign) :
    Stuck .statement [.keyword .letWord, .ident name] (.expected (.symbol .assign) t)
  | binding (name : String) {ts : List Token} {e : ParseError}
    (h : Stuck (.expression .lowest) ts e) :
    Stuck .statement (.keyword .letWord :: .ident name :: .symbol .assign :: ts) e
  | returning {ts : List Token} {e : ParseError} (h : Stuck (.expression .lowest) ts e) :
    Stuck .statement (.keyword .returnWord :: ts) e
  | blockStatement {ts : List Token} {e : ParseError} (h : Stuck .statements ts e) :
    Stuck .statement (.symbol .leftBrace :: ts) e
  | expressionStatement {ts : List Token} {e : ParseError} (h : Stuck (.expression .lowest) ts e)
    (hlet : ts.headD e.found ≠ .keyword .letWord)
    (hreturn : ts.headD e.found ≠ .keyword .returnWord)
    (hbrace : ts.headD e.found ≠ .symbol .leftBrace) : Stuck .statement ts e

/-- Arguments are stuck in the way of all lists. -/
lemma listStuck_arguments_iff {ts : List Token} {e : ParseError} :
    ListStuck ArgumentSpelled (Stuck (.expression .lowest)) ts e ↔ Stuck .arguments ts e := by
  constructor
  · intro h
    induction h with
    | item h => exact .argument h
    | notClosed h hcomma hparen =>
      obtain ⟨l, o, hform, hstop⟩ := h
      exact .argumentsNotClosed hform hstop hcomma hparen
    | further h h' ih =>
      obtain ⟨l, o, hform, -⟩ := h
      exact .furtherArgument hform ih
  · intro h
    generalize hw : Wanted.arguments = w at h
    induction h with
    | argument h => exact .item h
    | argumentsNotClosed h hstop hcomma hparen =>
      exact .notClosed ⟨_, _, h, hstop⟩ hcomma hparen
    | furtherArgument h h' ih =>
      exact .further ⟨_, _, h, Token.not_extends_of_none rfl (by simp)⟩ (ih hw)
    | _ => cases hw

/-! ### Completions -/

namespace Wanted

/-- The tokens are a phrase of the kind, without the parenthesis or the brace behind it. -/
def Spelled : Wanted → List Token → Prop
  | expression lv, ts => ∃ x l o, lv.Admits l ∧ Form (.expression x l o) ts
  | closed, ts => ∃ x l o, Form (.expression x l o) ts
  | arguments, ts => ∃ x xs l o us vs,
    Form (.expression x l o) us ∧ Form (.furtherArguments xs) vs ∧ ts = us ++ vs
  | block, ts => ∃ ss us, Form (.statements ss) us ∧ ts = inBraces us
  | statements, ts => ∃ ss, Form (.statements ss) ts
  | statement, ts => ∃ s o, Form (.statement s o) ts

/-- The tokens are a phrase of the kind once others, which a text may have, stand behind them. -/
def Completes (w : Wanted) (ts : List Token) : Prop :=
  ∃ us, (∀ t ∈ us, t.isWritable) ∧ w.Spelled (ts ++ us)

variable {w w' : Wanted} {ts : List Token}

/-- What completes a part completes the whole, with more tokens around it. -/
lemma Completes.around (h : w'.Completes ts) (pre post : List Token)
    (hpost : ∀ t ∈ post, t.isWritable)
    (hspelled : ∀ us, w'.Spelled us → w.Spelled (pre ++ (us ++ post))) :
    w.Completes (pre ++ ts) := by
  obtain ⟨us, hus, hts⟩ := h
  refine ⟨us ++ post, ?_, ?_⟩
  · intro t ht
    exact (List.mem_append.1 ht).elim (hus t) (hpost t)
  · have hwhole := hspelled _ hts
    rwa [List.append_assoc] at hwhole ⊢

/-- What completes a part completes the whole, with more tokens in front. -/
lemma Completes.behind (h : w'.Completes ts) (pre : List Token)
    (hspelled : ∀ us, w'.Spelled us → w.Spelled (pre ++ us)) : w.Completes (pre ++ ts) :=
  h.around pre [] (by simp) fun us hus => by simpa using hspelled us hus

/-- Where an expression is wanted, a truth value will do. -/
lemma completes_nil (lv : Level) : (expression lv).Completes [] := by
  refine ⟨[truth true], ?_, ?_⟩
  · simp [truth, Token.isWritable]
  · exact ⟨_, _, _, lv.admits_call, .boolean true⟩

end Wanted

/-- In a list of items that can be completed, the items can. -/
lemma ListStuck.exists_further {α : Type} {W : α → List Token → Token → Prop}
    {S : List Token → ParseError → Prop} {W' : α → List Token → Prop} {ts : List Token}
    {e : ParseError} (h : ListStuck W S ts e) (hspelled : ∀ {a ts t}, W a ts t → W' a ts)
    (hstuck : ∀ {ts e}, S ts e → ∃ us, (∀ t ∈ us, t.isWritable) ∧ ∃ a, W' a (ts ++ us)) :
    ∃ us, (∀ t ∈ us, t.isWritable) ∧ ∃ a as vs vs', W' a vs ∧ Grammar.Further W' as vs' ∧
      ts ++ us = vs ++ vs' := by
  induction h with
  | item h =>
    obtain ⟨us, hus, a, ha⟩ := hstuck h
    exact ⟨us, hus, a, [], _, [], ha, .nil, by simp⟩
  | notClosed h => exact ⟨[], by simp, _, [], _, [], hspelled h, .nil, rfl⟩
  | further h h' ih =>
    obtain ⟨us, hus, a, as, vs, vs', ha, has, heq⟩ := ih
    exact ⟨us, hus, _, a :: as, _, _, hspelled h, .cons ha has, by simp [heq]⟩

lemma ListStuck.exists_parameters {ts : List Token} {e : ParseError}
    (h : ListStuck ParameterSpelled ParameterStuck ts e) :
    ∃ us, (∀ t ∈ us, t.isWritable) ∧ ∃ names, Form.parameters names = ts ++ us := by
  have hstuck : ∀ {ts e}, ParameterStuck ts e →
      ∃ us, (∀ t ∈ us, t.isWritable) ∧ ∃ name, ts ++ us = [Token.ident name] := by
    rintro _ _ ⟨rfl, -⟩
    exact ⟨[.ident "x"], by decide, "x", rfl⟩
  have hspelled : ∀ {name ts t}, ParameterSpelled name ts t → ts = [Token.ident name] :=
    fun h => h
  obtain ⟨us, hus, name, names, vs, vs', rfl, hnames, heq⟩ := h.exists_further hspelled hstuck
  exact ⟨us, hus, name :: names, (Grammar.parameters_cons hnames).trans heq.symm⟩

lemma Token.ne_of_not_extends {t : Token} {o : Bool} (h : ¬ t.Extends .lowest o) :
    t ≠ .symbol .leftParen ∧ t ≠ .symbol .minus := by
  constructor
  · rintro rfl
    exact h (Or.inl ⟨.arguments, rfl, by decide⟩)
  · rintro rfl
    exact h (Or.inl ⟨.operator .subtract, rfl, by decide⟩)

open Wanted in
/-- Whatever phrase is stuck, there are tokens that complete what was read of it. -/
theorem Stuck.completes {w : Wanted} {ts : List Token} {e : ParseError} (h : Stuck w ts e) :
    w.Completes ts := by
  induction h with
  | noOperand | tooLarge => exact completes_nil _
  | unary op h ih =>
    refine ih.behind [.symbol op.sign] ?_
    rintro us ⟨x, l, o, hl, hform⟩
    have hl : .unary ≤ l := hl.elim (fun hlt => Nat.le_of_lt hlt) id
    exact ⟨_, _, _, Or.inr (Nat.le_refl _), .unary op hl hform⟩
  | grouped h ih =>
    refine ih.around [.symbol .leftParen] [.symbol .rightParen] (by decide) ?_
    rintro us ⟨x, l, o, hform⟩
    exact ⟨_, _, _, Level.admits_call _, .grouped hform⟩
  | braces h ih =>
    refine ih.around [.symbol .leftBrace] [.symbol .rightBrace] (by decide) ?_
    rintro us ⟨ss, hform⟩
    exact ⟨_, _, _, Level.admits_call _, .block hform⟩
  | conditional ht =>
    refine ⟨inParens [truth true] ++ inBraces [], by decide, ?_⟩
    exact ⟨_, _, _, Level.admits_call _, .ifThen (.boolean true) .nil⟩
  | condition h ih =>
    refine ih.around [.keyword .ifWord, .symbol .leftParen] (.symbol .rightParen :: inBraces [])
      (by decide) ?_
    rintro us ⟨x, l, o, hform⟩
    exact ⟨_, _, _, Level.admits_call _, by simpa [inParens] using Form.ifThen hform .nil⟩
  | @consequence lv c l o ts us e h h' ih =>
    refine ih.behind (.keyword .ifWord :: inParens ts) ?_
    rintro _ ⟨ss, us, hform, rfl⟩
    exact ⟨_, _, _, Level.admits_call _, .ifThen h hform⟩
  | @alternative lv c t l o ts us vs e h ht h' ih =>
    have hwhole := ih.behind (.keyword .ifWord ::
      (inParens ts ++ inBraces us ++ [.keyword .elseWord])) (w := .expression lv) ?_
    · simpa using hwhole
    · rintro _ ⟨ss, vs, hform, rfl⟩
      exact ⟨_, _, _, Level.admits_call _, by simpa using Form.ifElse h ht hform⟩
  | function ht =>
    refine ⟨inParens [] ++ inBraces [], by decide, ?_⟩
    exact ⟨_, _, _, Level.admits_call _, .function [] .nil⟩
  | parameters h =>
    obtain ⟨us, hus, names, hnames⟩ := h.exists_parameters
    have hclosers : ∀ t ∈ .symbol .rightParen :: inBraces [], t.isWritable := by decide
    refine ⟨us ++ .symbol .rightParen :: inBraces [], ?_, ?_⟩
    · intro t ht
      exact (List.mem_append.1 ht).elim (hus t) (hclosers t)
    · have hform := Form.function names .nil
      rw [hnames] at hform
      exact ⟨_, _, _, Level.admits_call _, by simpa [inParens] using hform⟩
  | @body names lv ts e h ih =>
    refine ih.behind (.keyword .fnWord :: inParens (Form.parameters names)) ?_
    rintro _ ⟨ss, us, hform, rfl⟩
    exact ⟨_, _, _, Level.admits_call _, .function names hform⟩
  | @operator op lv left l o ts us e hlv hl h h' ih =>
    rw [List.append_cons]
    refine ih.behind (ts ++ [.symbol op.sign]) ?_
    rintro vs ⟨x, r, o', hr, hform⟩
    rw [← List.append_cons]
    exact ⟨_, _, _, Or.inl hlv, .binary op hl (BinaryOp.admits_of_level.1 hr) h hform⟩
  | @call lv f o ts us e h h' hus ih =>
    rw [List.append_cons]
    refine ih.around (ts ++ [.symbol .leftParen]) [.symbol .rightParen] (by decide) ?_
    rintro _ ⟨x, xs, l, o', vs, vs', hx, hxs, rfl⟩
    rw [← List.append_cons]
    exact ⟨_, _, _, Level.admits_call _, .call h (.someArguments hx hxs)⟩
  | inside h ih =>
    refine ih.behind [] ?_
    rintro us ⟨x, l, o, -, hform⟩
    exact ⟨x, l, o, hform⟩
  | notClosed h => exact ⟨[], by simp, _, _, _, by simpa using h⟩
  | argument h ih =>
    refine ih.behind [] ?_
    rintro us ⟨x, l, o, -, hform⟩
    exact ⟨x, [], l, o, us, [], hform, .noFurther, by simp⟩
  | argumentsNotClosed h => exact ⟨[], by simp, _, [], _, _, _, [], h, .noFurther, rfl⟩
  | @furtherArgument x l o ts us e h h' ih =>
    rw [List.append_cons]
    refine ih.behind (ts ++ [.symbol .comma]) ?_
    rintro _ ⟨y, ys, l', o', vs, vs', hy, hys, rfl⟩
    exact ⟨x, y :: ys, l, o, ts, _, h, .further hy hys, by simp⟩
  | notOpened ht => exact ⟨inBraces [], by decide, [], [], .nil, rfl⟩
  | opened h ih =>
    refine ih.around [.symbol .leftBrace] [.symbol .rightBrace] (by decide) ?_
    rintro us ⟨ss, hform⟩
    exact ⟨ss, us, hform, rfl⟩
  | unclosed => exact ⟨[], by simp, [], .nil⟩
  | next h hend hbrace ih =>
    refine ih.behind [] ?_
    rintro us ⟨s, o, hform⟩
    exact ⟨[s], by simpa using Form.unended hform .nil (by simp)⟩
  | @ended s o ts us e h h' ih =>
    rw [List.append_cons]
    refine ih.behind (ts ++ [.symbol .semicolon]) ?_
    rintro vs ⟨ss, hform⟩
    rw [← List.append_cons]
    exact ⟨s :: ss, .ended h hform⟩
  | @unended s o ts us e h h' hsemi hstop ih =>
    rcases us with _ | ⟨u, us⟩
    · -- the statement in front may be the last one
      exact ⟨[], by simp, [s], by simpa using Form.unended h .nil (by simp)⟩
    · obtain ⟨vs, hvs, ss, hform⟩ := ih
      refine ⟨vs, hvs, s :: ss, ?_⟩
      rw [List.append_assoc]
      refine .unended h hform (hstop.imp_right fun hstop => ?_)
      simpa using Token.ne_of_not_extends hstop
  | bindingName ht =>
    refine ⟨[.ident "x", .symbol .assign, truth true], by decide, ?_⟩
    exact ⟨_, _, .binding "x" (.boolean true)⟩
  | bindingSign name ht =>
    refine ⟨[.symbol .assign, truth true], by decide, ?_⟩
    exact ⟨_, _, .binding name (.boolean true)⟩
  | binding name h ih =>
    refine ih.behind [.keyword .letWord, .ident name, .symbol .assign] ?_
    rintro us ⟨x, l, o, -, hform⟩
    exact ⟨_, _, .binding name hform⟩
  | returning h ih =>
    refine ih.behind [.keyword .returnWord] ?_
    rintro us ⟨x, l, o, -, hform⟩
    exact ⟨_, _, .returning hform⟩
  | blockStatement h ih =>
    refine ih.around [.symbol .leftBrace] [.symbol .rightBrace] (by decide) ?_
    rintro us ⟨ss, hform⟩
    exact ⟨_, _, .blockStatement hform⟩
  | @expressionStatement ts e h hlet hreturn hbrace ih =>
    rcases ts with _ | ⟨t, ts⟩
    · -- another operand than the one the parts of the phrase ask for, lest it be a block
      exact ⟨[truth true], by decide, _, _, .expression (.boolean true) (by decide)⟩
    · obtain ⟨us, hus, x, l, o, -, hform⟩ := ih
      exact ⟨us, hus, _, _, .expression hform (by simpa using hbrace)⟩

/-! ### Phrases stuck at a place -/

namespace Cursor

/-- Tokens that are stuck stand at `c`, and behind them the token that the error speaks of. -/
def StuckIn (c : Cursor) (L : List Token → ParseError → Prop) (e : ParseError) : Prop :=
  ∃ ts c₁, L ts e ∧ c.Passes ts c₁ ∧ c₁.peek = e.found

variable {c c₁ : Cursor} {L L' : List Token → ParseError → Prop} {ts : List Token}
  {e : ParseError}

lemma stuckIn_here (h : L [] e) (he : c.peek = e.found) : c.StuckIn L e :=
  ⟨[], c, h, .refl c, he⟩

/-- What is stuck behind tokens is stuck with these tokens in front. -/
lemma StuckIn.behind (h : c₁.StuckIn L e) (hpass : c.Passes ts c₁)
    (hL : ∀ us, L us e → us.headD e.found = c₁.peek → L' (ts ++ us) e) : c.StuckIn L' e := by
  obtain ⟨us, c₂, hus, hpass', hc₂⟩ := h
  refine ⟨ts ++ us, c₂, hL us hus ?_, hpass.trans hpass', hc₂⟩
  rw [← hc₂]
  exact hpass'.headD_eq.symm

lemma StuckIn.mono (h : c.StuckIn L e)
    (hL : ∀ us, L us e → us.headD e.found = c.peek → L' us e) : c.StuckIn L' e :=
  h.behind (.refl c) hL

end Cursor
end TreeWalk
