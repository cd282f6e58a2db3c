/-
# The forms of a tree

A row of tokens that spells a tree is a *form* of it.  One tree has many forms: parentheses may
stand around any expression, a number may begin with zeros, and a semicolon behind a statement
may be left out.  The definition below is the grammar of the language; it speaks of trees and
tokens only, and not of the order in which anything is read.

A form of an expression has a level.  The operands of an operator are forms of a level that is
high enough, the right one of a higher level than the operator, so operators of one level group
to the left.

The main facts about forms are these:

* `Form.depthAfter`: braces are balanced;
* `Form.exists_first`, `Form.exists_last`: how an expression begins and ends.
-/
import Mathlib.Tactic.Common
import TreeWalk.Proofs.Place
import TreeWalk.Syntax.Render

namespace TreeWalk

/-! ### Levels -/

instance : LE Level := ⟨fun a b => a.rank ≤ b.rank⟩

instance (a b : Level) : Decidable (a ≤ b) :=
  inferInstanceAs (Decidable (a.rank ≤ b.rank))

namespace Level

lemma le_def {a b : Level} : a ≤ b ↔ a.rank ≤ b.rank := Iff.rfl

lemma not_lt {a b : Level} : ¬ a < b ↔ b ≤ a := Nat.not_lt

lemma le_call (a : Level) : a ≤ .call := by
  cases a <;> simp [le_def, rank]

lemma eq_call_of_le {a : Level} (h : .call ≤ a) : a = .call := by
  cases a <;> simp_all [le_def, rank]

/-- A form of level `l` may be read above the level `lv`.  An operand is read above any level. -/
def Admits (lv l : Level) : Prop :=
  lv < l ∨ .unary ≤ l

lemma admits_call (lv : Level) : lv.Admits .call :=
  Or.inr (by simp [le_def, rank])

lemma Admits.mono {lv l l' : Level} (h : lv.Admits l) (hl : l ≤ l') : lv.Admits l' := by
  simp only [Admits, lt_def, le_def] at *
  omega

end Level

lemma BinaryOp.lowest_lt_level (op : BinaryOp) : .lowest < op.level := by
  cases op <;> decide

lemma BinaryOp.level_lt_unary (op : BinaryOp) : op.level < .unary := by
  cases op <;> decide

lemma BinaryOp.admits_level {op : BinaryOp} {lv : Level} : lv.Admits op.level ↔ lv < op.level := by
  have := op.level_lt_unary
  simp only [Level.Admits, Level.lt_def, Level.le_def] at *
  omega

lemma BinaryOp.admits_of_level {op : BinaryOp} {l : Level} :
    op.level.Admits l ↔ op.level < l := by
  have := op.level_lt_unary
  simp only [Level.Admits, Level.lt_def, Level.le_def] at *
  omega

/-! ### Tokens that go on with an expression -/

lemma BinaryOp.eq_sign_of_ofSign? {s : Symbol} {op : BinaryOp}
    (h : BinaryOp.ofSign? s = some op) : s = op.sign := by
  cases s <;> cases h <;> rfl

namespace Continuation

@[simp] lemma ofToken?_sign (op : BinaryOp) :
    ofToken? (.symbol op.sign) = some (.operator op) := by
  cases op <;> rfl

@[simp] lemma ofToken?_leftParen : ofToken? (.symbol .leftParen) = some .arguments := rfl

lemma eq_sign_of_ofToken? {t : Token} {op : BinaryOp} (h : ofToken? t = some (.operator op)) :
    t = .symbol op.sign := by
  rw [ofToken?.eq_def] at h
  split at h
  · cases h
  · next s _ =>
    obtain ⟨op', hs, ho⟩ := Option.map_eq_some_iff.1 h
    cases ho
    rw [BinaryOp.eq_sign_of_ofSign? hs]
  · cases h

lemma eq_leftParen_of_ofToken? {t : Token} (h : ofToken? t = some .arguments) :
    t = .symbol .leftParen := by
  rw [ofToken?.eq_def] at h
  split at h
  · rfl
  · obtain ⟨op', -, ho⟩ := Option.map_eq_some_iff.1 h
    cases ho
  · cases h

end Continuation

namespace Token

/-- Behind an expression that is read above the level `lv`, the token is taken into it. -/
def Continues (lv : Level) (t : Token) : Prop :=
  ∃ k, Continuation.ofToken? t = some k ∧ lv < k.level

/-- The tokens that an expression may begin with. -/
def beginsExpression : Token → Bool
  | .ident _ => true
  | .int _ => true
  | .keyword .trueWord => true
  | .keyword .falseWord => true
  | .keyword .ifWord => true
  | .keyword .fnWord => true
  | .symbol .bang => true
  | .symbol .minus => true
  | .symbol .leftParen => true
  | .symbol .leftBrace => true
  | _ => false

/-- The tokens that a statement may begin with. -/
def beginsStatement (t : Token) : Bool :=
  t.beginsExpression || t = .keyword .letWord || t = .keyword .returnWord

/-- The tokens that an expression may end with. -/
def endsExpression : Token → Bool
  | .ident _ => true
  | .int _ => true
  | .keyword .trueWord => true
  | .keyword .falseWord => true
  | .symbol .rightParen => true
  | .symbol .rightBrace => true
  | _ => false

/-- Behind an expression that is read above the level `lv`, and that ends with a conditional
without `else` if `lacksElse` holds, the token belongs to it. -/
def Extends (lv : Level) (lacksElse : Bool) (t : Token) : Prop :=
  t.Continues lv ∨ lacksElse ∧ t = .keyword .elseWord

variable {t : Token} {k : Continuation} {lv l : Level} {o : Bool}

lemma not_continues_call (t : Token) : ¬ t.Continues .call := by
  rintro ⟨k, -, h⟩
  exact Level.not_lt.2 (Level.le_call _) h

lemma not_continues_of_none (h : Continuation.ofToken? t = none) : ¬ t.Continues lv := by
  rintro ⟨k, hk, -⟩
  simp [h] at hk

lemma not_continues_of_level_le (hk : Continuation.ofToken? t = some k) (hl : k.level ≤ l) :
    ¬ t.Continues l := by
  rintro ⟨k', hk', hlt⟩
  cases hk.symm.trans hk'
  exact Level.not_lt.2 hl hlt

lemma not_extends_of_none (h : Continuation.ofToken? t = none) (h' : t ≠ .keyword .elseWord) :
    ¬ t.Extends lv o :=
  not_or.2 ⟨not_continues_of_none h, fun he => h' he.2⟩

lemma not_extends_of_level_le (hk : Continuation.ofToken? t = some k) (hl : k.level ≤ l) :
    ¬ t.Extends l o := by
  refine not_or.2 ⟨not_continues_of_level_le hk hl, ?_⟩
  rintro ⟨-, rfl⟩
  cases hk

lemma level_le_of_not_extends (h : ¬ t.Extends l o) (hk : Continuation.ofToken? t = some k) :
    k.level ≤ l :=
  Level.not_lt.1 fun hl => h (Or.inl ⟨k, hk, hl⟩)

lemma not_extends_iff : ¬ t.Extends lv o ↔ ¬ t.Continues lv ∧ ¬ (o ∧ t = .keyword .elseWord) :=
  not_or

/-- A token that begins a statement is taken into an expression only if it is `(` or `-`. -/
lemma eq_of_beginsStatement (h : t.beginsStatement) (h' : t.Extends lv o) :
    t = .symbol .leftParen ∨ t = .symbol .minus := by
  rcases h' with ⟨k, hk, -⟩ | ⟨-, rfl⟩
  · cases k with
    | arguments => exact Or.inl (Continuation.eq_leftParen_of_ofToken? hk)
    | operator op =>
      rw [Continuation.eq_sign_of_ofToken? hk] at h ⊢
      cases op <;> simp_all [beginsStatement, beginsExpression, BinaryOp.sign]
  · cases h

lemma ne_semicolon_of_beginsStatement (h : t.beginsStatement) :
    t ≠ .symbol .semicolon := by
  rintro rfl
  cases h

@[simp] lemma isPlain_binary (op : BinaryOp) : (symbol op.sign).isPlain := by
  cases op <;> rfl

@[simp] lemma isPlain_unary (op : UnaryOp) : (symbol op.sign).isPlain := by
  cases op <;> rfl

end Token

/-! ### Forms -/

/-- Is a statement a block that stands alone? -/
def Statement.isBlock : Statement → Bool
  | .block _ => true
  | _ => false

/-- What tokens may be a form of. -/
inductive Phrase where
  /-- An expression, as a form of the given level.  The form may end with a conditional that
  lacks its `else`. -/
  | expression (e : Expression) (level : Level) (lacksElse : Bool)
  /-- The arguments of a call, without the parentheses. -/
  | arguments (es : List Expression)
  /-- Arguments of a call, each with a comma in front. -/
  | furtherArguments (es : List Expression)
  /-- A statement, without a semicolon behind it. -/
  | statement (s : Statement) (lacksElse : Bool)
  /-- Statements in a row. -/
  | statements (ss : List Statement)

namespace Form

/-- A row of tokens in braces. -/
def inBraces (ts : List Token) : List Token :=
  .symbol .leftBrace :: (ts ++ [.symbol .rightBrace])

/-- A row of tokens in parentheses. -/
def inParens (ts : List Token) : List Token :=
  .symbol .leftParen :: (ts ++ [.symbol .rightParen])

/-- The names of parameters, with commas between them. -/
def parameters (names : List String) : List Token :=
  (names.map Token.ident).intersperse (.symbol .comma)

/-- The word for a truth value. -/
def truth (b : Bool) : Token :=
  .keyword (if b then .trueWord else .falseWord)

end Form

open Form in
/-- The tokens `ts` are a form of a phrase.  The levels of forms are those of the operators, with
`.call` for the forms whose end cannot be mistaken: names, numbers, truth values, calls,
constructs with parentheses or braces, and whatever stands in parentheses.

* A binding, a return and an expression that stands alone are followed by a semicolon, or by
  a statement that does not begin with `(` or `-`, or by nothing.
* A block that stands alone may be followed by a semicolon, or by any statement.
* An expression that stands alone does not begin with `{`. -/
inductive Form : Phrase → List Token → Prop
  | identifier (name : String) : Form (.expression (.identifier name) .call false) [.ident name]
  | integer {n : Int64} {digits : String} (h : n.toInt = Decimal.value digits.toList) :
    Form (.expression (.integer n) .call false) [.int digits]
  | boolean (b : Bool) : Form (.expression (.boolean b) .call false) [truth b]
  | unary (op : UnaryOp) {e : Expression} {l : Level} {o : Bool} {ts : List Token}
    (hl : .unary ≤ l) (h : Form (.expression e l o) ts) :
    Form (.expression (.unary op e) .unary o) (.symbol op.sign :: ts)
  | binary (op : BinaryOp) {left right : Expression} {l r : Level} {o o' : Bool}
    {ts us : List Token} (hl : op.level ≤ l) (hr : op.level < r)
    (h : Form (.expression left l o) ts) (h' : Form (.expression right r o') us) :
    Form (.expression (.binary op left right) op.level o') (ts ++ .symbol op.sign :: us)
  | call {f : Expression} {es : List Expression} {o : Bool} {ts us : List Token}
    (h : Form (.expression f .call o) ts) (h' : Form (.arguments es) us) :
    Form (.expression (.call f es) .call false) (ts ++ inParens us)
  | ifThen {c : Expression} {t : List Statement} {l : Level} {o : Bool} {ts us : List Token}
    (h : Form (.expression c l o) ts) (ht : Form (.statements t) us) :
    Form (.expression (.ifThen c t) .call true)
      (.keyword .ifWord :: (inParens ts ++ inBraces us))
  | ifElse {c : Expression} {t e : List Statement} {l : Level} {o : Bool}
    {ts us vs : List Token} (h : Form (.expression c l o) ts) (ht : Form (.statements t) us)
    (he : Form (.statements e) vs) :
    Form (.expression (.ifElse c t e) .call false)
      (.keyword .ifWord :: (inParens ts ++ inBraces us ++ .keyword .elseWord :: inBraces vs))
  | block {b : List Statement} {ts : List Token} (h : Form (.statements b) ts) :
    Form (.expression (.block b) .call false) (inBraces ts)
  | function (names : List String) {b : List Statement} {ts : List Token}
    (h : Form (.statements b) ts) :
    Form (.expression (.function names b) .call false)
      (.keyword .fnWord :: (inParens (parameters names) ++ inBraces ts))
  | grouped {e : Expression} {l : Level} {o : Bool} {ts : List Token}
    (h : Form (.expression e l o) ts) : Form (.expression e .call false) (inParens ts)
  | noArguments : Form (.arguments []) []
  | someArguments {e : Expression} {es : List Expression} {l : Level} {o : Bool}
    {ts us : List Token} (h : Form (.expression e l o) ts)
    (h' : Form (.furtherArguments es) us) : Form (.arguments (e :: es)) (ts ++ us)
  | noFurther : Form (.furtherArguments []) []
  | further {e : Expression} {es : List Expression} {l : Level} {o : Bool}
    {ts us : List Token} (h : Form (.expression e l o) ts)
    (h' : Form (.furtherArguments es) us) :
    Form (.furtherArguments (e :: es)) (.symbol .comma :: (ts ++ us))
  | binding (name : String) {e : Expression} {l : Level} {o : Bool} {ts : List Token}
    (h : Form (.expression e l o) ts) :
    Form (.statement (.binding name e) o)
      (.keyword .letWord :: .ident name :: .symbol .assign :: ts)
  | returning {e : Expression} {l : Level} {o : Bool} {ts : List Token}
    (h : Form (.expression e l o) ts) :
    Form (.statement (.returning e) o) (.keyword .returnWord :: ts)
  | expression {e : Expression} {l : Level} {o : Bool} {ts : List Token}
    (h : Form (.expression e l o) ts) (hts : ts.head? ≠ some (.symbol .leftBrace)) :
    Form (.statement (.expression e) o) ts
  | blockStatement {b : List Statement} {ts : List Token} (h : Form (.statements b) ts) :
    Form (.statement (.block b) false) (inBraces ts)
  | nil : Form (.statements []) []
  | ended {s : Statement} {ss : List Statement} {o : Bool} {ts us : List Token}
    (h : Form (.statement s o) ts) (h' : Form (.statements ss) us) :
    Form (.statements (s :: ss)) (ts ++ .symbol .semicolon :: us)
  | unended {s : Statement} {ss : List Statement} {o : Bool} {ts us : List Token}
    (h : Form (.statement s o) ts) (h' : Form (.statements ss) us)
    (hus : s.isBlock ∨
      us.head? ≠ some (.symbol .leftParen) ∧ us.head? ≠ some (.symbol .minus)) :
    Form (.statements (s :: ss)) (ts ++ us)

namespace Form

variable {e : Expression} {l : Level} {o : Bool} {s : Statement} {ts : List Token}

/-! ### Levels and braces -/

lemma lowest_lt (h : Form (.expression e l o) ts) : .lowest < l := by
  cases h with
  | binary op => exact op.lowest_lt_level
  | _ => decide

lemma admits_lowest (h : Form (.expression e l o) ts) : Level.lowest.Admits l :=
  Or.inl h.lowest_lt

lemma depthAfter_parameters (names : List String) (d : Nat) :
    Token.depthAfter d (parameters names) = d := by
  induction names with
  | nil => rfl
  | cons name names ih =>
    cases names with
    | nil => rfl
    | cons name' names => simpa [parameters, Token.depthBehind] using ih

/-- Behind a form, as many blocks are open as in front of it. -/
theorem depthAfter {ph : Phrase} (h : Form ph ts) (d : Nat) : Token.depthAfter d ts = d := by
  induction h generalizing d with
  | unary op hl h ih => simp [Token.depthBehind_of_isPlain, ih]
  | binary op hl hr h h' ih ih' => simp [Token.depthBehind_of_isPlain, ih, ih']
  | function names h ih =>
    simp [inParens, inBraces, depthAfter_parameters, ih, Token.depthBehind]
  | _ => simp_all [inParens, inBraces, truth, Token.depthBehind]

lemma endOfInput_notMem_parameters (names : List String) : .endOfInput ∉ parameters names := by
  induction names with
  | nil => simp [parameters]
  | cons name names ih =>
    cases names with
    | nil => simp [parameters]
    | cons name' names => simpa [parameters] using ih

/-- No end of input is part of a form. -/
lemma endOfInput_notMem {ph : Phrase} (h : Form ph ts) : .endOfInput ∉ ts := by
  induction h with
  | function names h ih =>
    simp [inParens, inBraces, endOfInput_notMem_parameters, ih]
  | _ => simp_all [inParens, inBraces, truth]

/-! ### First and last tokens -/

/-- The first token of an expression. -/
lemma exists_first (h : Form (.expression e l o) ts) :
    ∃ t us, ts = t :: us ∧ t.beginsExpression := by
  generalize hph : Phrase.expression e l o = ph at h
  induction h generalizing e l o with
  | boolean b => exact ⟨_, [], rfl, by cases b <;> rfl⟩
  | unary op => exact ⟨_, _, rfl, by cases op <;> rfl⟩
  | binary op hl hr h h' ih ih' =>
    obtain ⟨t, us, rfl, ht⟩ := ih rfl
    exact ⟨t, _, rfl, ht⟩
  | call h h' ih =>
    obtain ⟨t, us, rfl, ht⟩ := ih rfl
    exact ⟨t, _, rfl, ht⟩
  | identifier | integer | ifThen | ifElse | block | function | grouped =>
    exact ⟨_, _, rfl, rfl⟩
  | _ => cases hph

/-- The first token of a statement. -/
lemma exists_first_statement (h : Form (.statement s o) ts) :
    ∃ t us, ts = t :: us ∧ t.beginsStatement := by
  cases h with
  | expression h =>
    obtain ⟨t, us, rfl, ht⟩ := h.exists_first
    exact ⟨t, us, rfl, by simp [Token.beginsStatement, ht]⟩
  | binding | returning | blockStatement => exact ⟨_, _, rfl, rfl⟩

/-- The last token of an expression. -/
lemma exists_last (h : Form (.expression e l o) ts) :
    ∃ t, ts.getLast? = some t ∧ t.endsExpression := by
  generalize hph : Phrase.expression e l o = ph at h
  induction h generalizing e l o with
  | identifier | integer => exact ⟨_, rfl, rfl⟩
  | boolean b => exact ⟨_, rfl, by cases b <;> rfl⟩
  | unary op hl h ih =>
    obtain ⟨t, hlast, ht⟩ := ih rfl
    exact ⟨t, by simp [List.getLast?_cons, hlast], ht⟩
  | binary op hl hr h h' ih ih' =>
    obtain ⟨t, hlast, ht⟩ := ih' rfl
    exact ⟨t, by simp [List.getLast?_append, List.getLast?_cons, hlast], ht⟩
  | call | grouped => exact ⟨.symbol .rightParen, by simp [inParens, List.getLast?_cons], rfl⟩
  | ifThen | ifElse | block | function =>
    exact ⟨.symbol .rightBrace, by simp [inBraces, List.getLast?_cons], rfl⟩
  | _ => cases hph

/-- The last token of a statement is one that may end an expression. -/
lemma exists_last_statement (h : Form (.statement s o) ts) :
    ∃ t, ts.getLast? = some t ∧ t.endsExpression := by
  cases h with
  | binding name h =>
    obtain ⟨t, hlast, ht⟩ := h.exists_last
    exact ⟨t, by simp [List.getLast?_cons, hlast], ht⟩
  | returning h =>
    obtain ⟨t, hlast, ht⟩ := h.exists_last
    exact ⟨t, by simp [List.getLast?_cons, hlast], ht⟩
  | expression h => exact h.exists_last
  | blockStatement h =>
    exact ⟨.symbol .rightBrace, by simp [inBraces, List.getLast?_cons], rfl⟩

end Form

/-! ### Forms at a place -/

namespace Cursor

/-- A form of `e` stands at `c` that can be read above the level `lv`, the place behind it is
`c'`, and the token there is not taken into the expression. -/
def HoldsExpression (c : Cursor) (lv : Level) (e : Expression) (c' : Cursor) : Prop :=
  ∃ l o ts, Form (.expression e l o) ts ∧ lv.Admits l ∧ c.Passes ts c' ∧ ¬ c'.peek.Extends lv o

/-- Statements in braces stand at `c`, and `c'` is the place behind them. -/
def HoldsBlock (c : Cursor) (ss : List Statement) (c' : Cursor) : Prop :=
  ∃ ts, Form (.statements ss) ts ∧ c.Passes (Form.inBraces ts) c'

/-- A form of `s` stands at `c`, and `c'` is the place behind it and behind the semicolon that
may follow.  The next token is not taken into the statement. -/
def HoldsStatement (c : Cursor) (s : Statement) (c' : Cursor) : Prop :=
  ∃ o ts c₁, Form (.statement s o) ts ∧ c.Passes ts c₁ ∧
    (s.isBlock ∨ ¬ c₁.peek.Extends .lowest o) ∧ c' = c₁.skipping (.symbol .semicolon)

variable {c c' c'' : Cursor} {s : Statement} {ss : List Statement} {us vs : List Token}

/-- The tokens of a statement, with the semicolon behind it. -/
lemma HoldsStatement.passes (h : c.HoldsStatement s c') :
    ∃ ts, ts ≠ [] ∧ c.Passes ts c' ∧ c'.depth = c.depth := by
  obtain ⟨o, ts, c₁, hform, hpass, -, rfl⟩ := h
  obtain ⟨t, us, rfl, -⟩ := hform.exists_first_statement
  have hdepth : c₁.depth = c.depth := hpass.depth_eq.trans (hform.depthAfter _)
  by_cases hsemi : c₁.peek = .symbol .semicolon
  · rw [skipping, if_pos hsemi]
    exact ⟨_, by simp, hpass.trans (.single hsemi rfl), hdepth⟩
  · rw [skipping, if_neg hsemi]
    exact ⟨_, by simp, hpass, hdepth⟩

lemma HoldsStatement.length_lt (h : c.HoldsStatement s c') : c'.rest.length < c.rest.length := by
  obtain ⟨ts, hts, hpass, -⟩ := h.passes
  have := List.length_pos_iff.2 hts
  have := hpass.length_eq
  omega

lemma HoldsStatement.beginsStatement (h : c.HoldsStatement s c') : c.peek.beginsStatement := by
  obtain ⟨o, ts, c₁, hform, hpass, -⟩ := h
  obtain ⟨t, us, rfl, ht⟩ := hform.exists_first_statement
  exact hpass.peek_eq ▸ ht

/-- A statement in front of statements. -/
lemma HoldsStatement.cons (h : c.HoldsStatement s c') (hss : Form (.statements ss) us)
    (hpass : c'.Passes (us ++ vs) c'') :
    ∃ ts, Form (.statements (s :: ss)) ts ∧ c.Passes (ts ++ vs) c'' := by
  obtain ⟨o, ts, c₁, hs, hts, hstop, rfl⟩ := h
  -- the semicolon decides between the two forms of a list
  by_cases hsemi : c₁.peek = .symbol .semicolon
  · rw [skipping, if_pos hsemi] at hpass
    refine ⟨_, .ended hs hss, ?_⟩
    rw [List.append_assoc, List.cons_append]
    exact hts.trans (.plain hsemi rfl hpass)
  · rw [skipping, if_neg hsemi] at hpass
    refine ⟨_, .unended hs hss (hstop.imp_right fun hstop => ?_), ?_⟩
    · -- a token that goes on with an expression would have been taken into the statement
      have key : ∀ t, Continuation.ofToken? t ≠ none → us.head? ≠ some t := by
        intro t ht hhead
        obtain ⟨k, hk⟩ := Option.ne_none_iff_exists'.1 ht
        obtain ⟨us, rfl⟩ := List.head?_eq_some_iff.1 hhead
        have hpeek : c₁.peek = t := hpass.peek_eq
        have := Token.level_le_of_not_extends (hpeek ▸ hstop) hk
        cases k with
        | arguments => exact absurd this (by decide)
        | operator op => exact Level.not_lt.2 this op.lowest_lt_level
      exact ⟨key _ (by simp), key _ (by decide)⟩
    · rw [List.append_assoc]
      exact hts.trans hpass

/-- Taking statements apart, when no token stands behind them that could be taken into the
last one. -/
lemma exists_holdsStatement {ts : List Token} (h : Form (.statements (s :: ss)) ts)
    (hpass : c.Passes (ts ++ vs) c'') (hvs : Continuation.ofToken? (vs.headD c''.peek) = none)
    (hsemi : vs.headD c''.peek ≠ .symbol .semicolon)
    (helse : vs.headD c''.peek ≠ .keyword .elseWord) :
    ∃ us c', c.HoldsStatement s c' ∧ Form (.statements ss) us ∧ c'.Passes (us ++ vs) c'' := by
  cases h with
  | @ended _ _ o ts us hs hss =>
    rw [List.append_assoc] at hpass
    obtain ⟨c₁, hts, hpeek, hrest⟩ := passes_append.1 hpass
    refine ⟨us, c₁.pass, ⟨_, ts, c₁, hs, hts, Or.inr ?_, ?_⟩, hss, hrest.2⟩
    · exact Token.not_extends_of_none (by rw [hpeek]; rfl) (by simp [hpeek])
    · rw [skipping, if_pos hpeek, pass_eq_next (by rw [hpeek]; rfl)]
  | @unended _ _ o ts us hs hss hus =>
    rw [List.append_assoc] at hpass
    obtain ⟨c₁, hts, hrest⟩ := passes_append.1 hpass
    have hpeek := hrest.headD_eq
    -- behind the statement stands the first token of the next one, or what follows the list
    have hfirst : c₁.peek ≠ .symbol .semicolon ∧ (s.isBlock ∨ ¬ c₁.peek.Extends .lowest o) := by
      cases hss with
      | nil =>
        rw [List.nil_append] at hpeek
        exact ⟨hpeek ▸ hsemi, Or.inr (hpeek ▸ Token.not_extends_of_none hvs helse)⟩
      | ended h h' | unended h h' =>
        obtain ⟨t, us', rfl, ht⟩ := h.exists_first_statement
        have hpeek : c₁.peek = t := hpeek
        refine ⟨hpeek ▸ Token.ne_semicolon_of_beginsStatement ht, hus.imp_right ?_⟩
        rintro ⟨hparen, hminus⟩ hext
        rcases Token.eq_of_beginsStatement ht (hpeek ▸ hext) with rfl | rfl
        · exact hparen rfl
        · exact hminus rfl
    refine ⟨us, c₁, ⟨o, ts, c₁, hs, hts, hfirst.2, ?_⟩, hss, hrest⟩
    rw [skipping, if_neg hfirst.1]

end Cursor
end TreeWalk
