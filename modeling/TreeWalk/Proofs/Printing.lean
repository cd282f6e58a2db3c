/-
# Programs that are read back from their text

A tree is written with parentheses around every operator, so its text is a form of it and is read
back as the tree.  Not every tree can be written so: a name has to be a name, a number must not
be negative, a condition gets its parentheses from the operator it is made of, and two statements
must not run into one.  A program is *printable* if nothing of this stands in the way, and then
reading gives back exactly what was written (`parse_render`).

The tokens of a text are found construct by construct (`tokens_unary` and the lemmas behind it):
each part of a construct is followed by a character that no token takes in.
-/
import TreeWalk.Proofs.Acceptance
import TreeWalk.Proofs.Stream

namespace TreeWalk

/-! ### Printable programs -/

/-- Does a text begin with a character? -/
def beginsWith (c : Char) (text : String) : Bool :=
  text.toList.head? = some c

/-- Is an expression an operator with its operands? -/
def Expression.isOperation : Expression → Bool
  | .unary _ _ | .binary _ _ _ => true
  | _ => false

/-- Is a statement an expression that stands alone? -/
def Statement.isExpression : Statement → Bool
  | .expression _ => true
  | _ => false

/-- May a statement stand in front of another one in a block?  An expression that stands alone
would take in a parenthesis behind it. -/
def Statement.mayPrecede (s t : Statement) : Bool :=
  !s.isExpression || !beginsWith '(' t.render

mutual

/-- Is everything in an expression such that it is read back? -/
def Expression.isPrintable : Expression → Bool
  | .identifier name => Token.isName name
  | .integer n => 0 ≤ n.toInt
  | .boolean _ => true
  | .unary _ e => e.isPrintable
  | .binary _ l r => l.isPrintable && r.isPrintable
  | .ifThen c t => c.isOperation && c.isPrintable && Statement.arePrintable t
  | .ifElse c t e =>
    c.isOperation && c.isPrintable && Statement.arePrintable t && Statement.arePrintable e
  | .block b => Statement.arePrintable b
  | .function names b => names.all Token.isName && Statement.arePrintable b
  | .call f es => f.isPrintable && Expression.arePrintable es

/-- Is everything in a statement such that it is read back? -/
def Statement.isPrintable : Statement → Bool
  | .binding name e => Token.isName name && e.isPrintable
  | .returning e => e.isPrintable
  | .expression e => e.isPrintable && !beginsWith '\x7b' e.render
  | .block b => Statement.arePrintable b

/-- Are the statements of a block such that they are read back, one behind the other? -/
def Statement.arePrintable : List Statement → Bool
  | [] => true
  | s :: ss => s.isPrintable && ss.head?.all s.mayPrecede && Statement.arePrintable ss

/-- Are all these expressions such that they are read back? -/
def Expression.arePrintable : List Expression → Bool
  | [] => true
  | e :: es => e.isPrintable && Expression.arePrintable es

end

/-- Is a program such that it is read back?  Nothing separates its statements, so an expression
that stands alone may only come last. -/
def Program.isPrintable (p : Program) : Bool :=
  p.all Statement.isPrintable && p.dropLast.all (!·.isExpression)

/-! ### The tokens of a text -/

namespace Token

@[simp] lemma stream_space (text : List Char) : stream (' ' :: text) = stream text :=
  stream_cons_blank rfl text

@[simp] lemma stream_leftParen (text : List Char) :
    stream ('(' :: text) = symbol .leftParen :: stream text :=
  stream_cons_sign rfl rfl text

@[simp] lemma stream_rightParen (text : List Char) :
    stream (')' :: text) = symbol .rightParen :: stream text :=
  stream_cons_sign rfl rfl text

@[simp] lemma stream_leftBrace (text : List Char) :
    stream ('\x7b' :: text) = symbol .leftBrace :: stream text :=
  stream_cons_sign rfl rfl text

@[simp] lemma stream_rightBrace (text : List Char) :
    stream ('\x7d' :: text) = symbol .rightBrace :: stream text :=
  stream_cons_sign rfl rfl text

@[simp] lemma stream_comma (text : List Char) :
    stream (',' :: text) = symbol .comma :: stream text :=
  stream_cons_sign rfl rfl text

@[simp] lemma stream_semicolon (text : List Char) :
    stream (';' :: text) = symbol .semicolon :: stream text :=
  stream_cons_sign rfl rfl text

@[simp] lemma stream_empty : stream [] = [] :=
  stream_of_nil rfl

/-- The tokens of a text in parentheses. -/
lemma stream_inParens (text : List Char) :
    stream ('(' :: (text ++ [')'])) = Form.inParens (stream text) := by
  rw [stream_leftParen, stream_append_cons (by decide), stream_rightParen, stream_empty]
  rfl

/-- The tokens of a row of texts, each between two spaces. -/
lemma stream_flatMap_spaced (texts : List (List Char)) (behind : List Char) :
    stream (texts.flatMap (fun text => ' ' :: (text ++ [' '])) ++ behind) =
      texts.flatMap stream ++ stream behind := by
  induction texts with
  | nil => rfl
  | cons text texts ih =>
    rw [List.flatMap_cons, List.flatMap_cons, List.cons_append, List.cons_append, stream_space,
      List.append_assoc, List.append_assoc, List.singleton_append,
      stream_append_cons (by decide), stream_space, ih, List.append_assoc]

/-- The tokens of a block. -/
lemma stream_braced (texts : List String) :
    stream (braced texts).toList = Form.inBraces (texts.flatMap fun s => stream s.toList) := by
  have htext : (braced texts).toList = '\x7b' ::
      ((texts.map String.toList).flatMap (fun text => ' ' :: (text ++ [' '])) ++ ['\x7d']) := by
    simp [braced, List.flatMap_map]
  rw [htext, stream_leftBrace, stream_flatMap_spaced, stream_rightBrace, stream_empty,
    List.flatMap_map]
  rfl

/-- The tokens of a list with commas. -/
lemma stream_listed (texts : List String) :
    stream (String.intercalate ", " texts).toList =
      [symbol .comma].intercalate (texts.map fun s => stream s.toList) := by
  rw [String.toList_intercalate]
  induction texts with
  | nil => exact stream_empty
  | cons text texts ih =>
    cases texts with
    | nil => simp
    | cons text' texts =>
      have hcomma : ", ".toList = [',', ' '] := rfl
      simp only [List.map_cons, List.intercalate_cons_cons] at ih ⊢
      rw [List.append_assoc, hcomma, List.cons_append, stream_append_cons (by decide),
        stream_comma, List.singleton_append, stream_space, ← hcomma, ih]
      simp

end Token

/-! ### The tokens of a construct -/

open Token

/-- The tokens of the texts of an expression. -/
def Expression.tokens (e : Expression) : List Token :=
  stream e.render.toList

/-- The tokens of the text of a statement. -/
def Statement.tokens (s : Statement) : List Token :=
  stream s.render.toList

lemma tokens_unary (op : UnaryOp) {e : Expression} (h : ¬ beginsWith '=' e.render) :
    (Expression.unary op e).tokens = Form.inParens (.symbol op.sign :: e.tokens) := by
  have htext : (Expression.unary op e).render.toList =
      '(' :: (op.sign.text.toList ++ e.render.toList ++ [')']) := by
    simp [Expression.render, UnaryOp.text]
  rw [Expression.tokens, htext, stream_inParens, stream_append_of_not_grows, stream_sign]
  · rfl
  · rintro t ht d hd hgrows
    -- a sign in front takes in only an `=`, and no operand begins with one
    rw [stream_sign, List.getLast?_singleton, Option.mem_some_iff] at ht
    subst ht
    simp only [grows, Bool.and_eq_true, decide_eq_true_eq] at hgrows
    rw [hgrows.2, Option.mem_def] at hd
    exact h (decide_eq_true hd)

lemma tokens_binary (op : BinaryOp) (l r : Expression) :
    (Expression.binary op l r).tokens =
      Form.inParens (l.tokens ++ .symbol op.sign :: r.tokens) := by
  have htext : (Expression.binary op l r).render.toList =
      '(' :: (l.render.toList ++ ' ' :: (op.sign.text.toList ++ ' ' :: r.render.toList) ++
        [')']) := by
    simp [Expression.render, BinaryOp.text]
  rw [Expression.tokens, htext, stream_inParens, stream_append_cons (by decide), stream_space,
    stream_append_cons (by decide), stream_space, stream_sign]
  rfl

lemma tokens_block (b : List Statement) :
    (Expression.block b).tokens = Form.inBraces (b.flatMap Statement.tokens) := by
  rw [Expression.tokens, Expression.render, stream_braced, Statement.renderEach_eq_map,
    List.flatMap_map]
  rfl

lemma tokens_blockStatement (b : List Statement) :
    (Statement.block b).tokens = Form.inBraces (b.flatMap Statement.tokens) :=
  tokens_block b

lemma tokens_ifThen (c : Expression) (t : List Statement) :
    (Expression.ifThen c t).tokens =
      .keyword .ifWord :: (c.tokens ++ Form.inBraces (t.flatMap Statement.tokens)) := by
  have htext : (Expression.ifThen c t).render.toList = Keyword.ifWord.text.toList ++
      ' ' :: (c.render.toList ++ ' ' :: (Expression.block t).render.toList) := by
    simp [Expression.render, Keyword.text]
  rw [Expression.tokens, htext, stream_append_cons (by decide), stream_space, stream_keyword,
    stream_append_cons (by decide), stream_space, ← tokens_block]
  rfl

lemma tokens_ifElse (c : Expression) (t e : List Statement) :
    (Expression.ifElse c t e).tokens = .keyword .ifWord ::
      (c.tokens ++ Form.inBraces (t.flatMap Statement.tokens) ++
        .keyword .elseWord :: Form.inBraces (e.flatMap Statement.tokens)) := by
  have htext : (Expression.ifElse c t e).render.toList =
      (Expression.ifThen c t).render.toList ++ ' ' :: (Keyword.elseWord.text.toList ++
        ' ' :: (Expression.block e).render.toList) := by
    simp [Expression.render, Keyword.text]
  rw [Expression.tokens, htext, stream_append_cons (by decide), stream_space,
    stream_append_cons (by decide), stream_space, stream_keyword, ← Expression.tokens,
    tokens_ifThen, ← tokens_block e]
  simp [Expression.tokens]

/-- The tokens of the names of parameters. -/
lemma intercalate_names {names : List String} (h : ∀ n ∈ names, isName n) :
    [.symbol .comma].intercalate (names.map fun n => stream n.toList) = Form.parameters names := by
  induction names with
  | nil => rfl
  | cons n names ih =>
    obtain ⟨hn, hnames⟩ := List.forall_mem_cons.1 h
    cases names with
    | nil => simp [stream_name hn, Form.parameters]
    | cons n' names =>
      simp only [List.map_cons, List.intercalate_cons_cons] at ih ⊢
      rw [ih hnames, stream_name hn]
      rfl

lemma tokens_function (names : List String) (b : List Statement) (h : ∀ n ∈ names, isName n) :
    (Expression.function names b).tokens = .keyword .fnWord ::
      (Form.inParens (Form.parameters names) ++ Form.inBraces (b.flatMap Statement.tokens)) := by
  have htext : (Expression.function names b).render.toList = Keyword.fnWord.text.toList ++
      '(' :: ((String.intercalate ", " names).toList ++
        ')' :: ' ' :: (Expression.block b).render.toList) := by
    simp [Expression.render, Keyword.text]
  rw [Expression.tokens, htext, stream_append_cons (by decide), stream_leftParen, stream_keyword,
    stream_append_cons (by decide), stream_rightParen, stream_space, stream_listed, ← tokens_block,
    intercalate_names h]
  simp [Form.inParens, Expression.tokens]

lemma tokens_call (f : Expression) (es : List Expression) :
    (Expression.call f es).tokens =
      f.tokens ++ Form.inParens ([.symbol .comma].intercalate (es.map Expression.tokens)) := by
  have htext : (Expression.call f es).render.toList = f.render.toList ++
      '(' :: ((String.intercalate ", " (es.map Expression.render)).toList ++ [')']) := by
    simp [Expression.render, Expression.renderEach_eq_map]
  rw [Expression.tokens, htext, stream_append_cons (by decide), stream_inParens, stream_listed,
    List.map_map]
  rfl

lemma tokens_binding {name : String} (e : Expression) (h : isName name) :
    (Statement.binding name e).tokens = .keyword .letWord :: .ident name :: .symbol .assign ::
      (e.tokens ++ [.symbol .semicolon]) := by
  have htext : (Statement.binding name e).render.toList = Keyword.letWord.text.toList ++
      ' ' :: (name.toList ++ ' ' :: (Symbol.assign.text.toList ++
        ' ' :: (e.render.toList ++ [';']))) := by
    simp [Statement.render, Keyword.text, Symbol.text]
  rw [Statement.tokens, htext, stream_append_cons (by decide), stream_space, stream_keyword,
    stream_append_cons (by decide), stream_space, stream_name h, stream_append_cons (by decide),
    stream_space, stream_sign, stream_append_cons (by decide), stream_semicolon, stream_empty]
  rfl

lemma tokens_returning (e : Expression) :
    (Statement.returning e).tokens =
      .keyword .returnWord :: (e.tokens ++ [.symbol .semicolon]) := by
  have htext : (Statement.returning e).render.toList =
      Keyword.returnWord.text.toList ++ ' ' :: (e.render.toList ++ [';']) := by
    simp [Statement.render, Keyword.text]
  rw [Statement.tokens, htext, stream_append_cons (by decide), stream_space, stream_keyword,
    stream_append_cons (by decide), stream_semicolon, stream_empty]
  rfl

/-! ### How a text begins -/

/-- The characters that the text of a printable expression may begin with. -/
def mayBegin (c : Char) : Bool :=
  isLetter c || isDigit c || c = '(' || c = '\x7b'

/-- A text that begins like an expression begins with no sign but a parenthesis or a brace. -/
lemma beginsWith_of_stream {text : String} {us : List Token} {s : Symbol}
    (h : text.toList.head?.any mayBegin)
    (hs : (stream text.toList ++ us).head? = some (.symbol s)) :
    s = .leftParen ∧ beginsWith '(' text ∨ s = .leftBrace ∧ beginsWith '\x7b' text := by
  unfold beginsWith
  cases htext : text.toList with
  | nil =>
    rw [htext] at h
    cases h
  | cons c rest =>
    rw [htext] at h hs
    simp only [List.head?_cons, Option.any_some, mayBegin, Bool.or_eq_true,
      decide_eq_true_eq] at h
    obtain ((hletter | hdigit) | rfl) | rfl := h
    · rw [stream_cons (not_isBlank_of_run (Or.inl hletter)), startingWith, if_pos hletter] at hs
      exact absurd (Option.some.inj hs) (ofWord_ne_symbol _ _)
    · rw [stream_cons (not_isBlank_of_run (Or.inr hdigit)), startingWith,
        if_neg (not_isLetter_of_isDigit hdigit), if_pos hdigit] at hs
      cases hs
    · rw [stream_leftParen] at hs
      cases hs
      exact Or.inl ⟨rfl, rfl⟩
    · rw [stream_leftBrace] at hs
      cases hs
      exact Or.inr ⟨rfl, rfl⟩

lemma digits_of_nonneg {n : Int64} (h : 0 ≤ n.toInt) :
    ∃ k : Nat, n.toInt = k ∧ (Expression.integer n).render.toList = Decimal.digits k := by
  obtain ⟨k, hk⟩ := Int.eq_ofNat_of_zero_le h
  refine ⟨k, hk, ?_⟩
  rw [Expression.render, hk, Decimal.text_natCast, String.toList_ofList]

/-- The text of a printable expression begins with a word, a number, a parenthesis or a brace. -/
theorem Expression.begins_render :
    ∀ e : Expression, e.isPrintable → e.render.toList.head?.any mayBegin
  | .identifier name, h => by
    simp only [isPrintable, isName, Bool.and_eq_true, decide_eq_true_eq, List.all_eq_true] at h
    obtain ⟨c, rest, hcons⟩ : ∃ c rest, name.toList = c :: rest :=
      List.exists_cons_of_ne_nil (by simpa using h.1.1)
    have hletter : isLetter c := h.1.2 c (by simp [hcons])
    simp [render, hcons, mayBegin, hletter]
  | .integer n, h => by
    simp only [isPrintable, decide_eq_true_eq] at h
    obtain ⟨k, -, hrender⟩ := digits_of_nonneg h
    obtain ⟨c, rest, hcons⟩ : ∃ c rest, Decimal.digits k = c :: rest :=
      List.exists_cons_of_ne_nil (Decimal.digits_ne_nil k)
    have hdigit : isDigit c := Decimal.isDigit_of_mem_digits (hcons ▸ List.mem_cons_self)
    simp [hrender, hcons, mayBegin, hdigit]
  | .boolean b, _ => by cases b <;> decide
  | .unary _ _, _ => by simp [render, mayBegin]
  | .binary _ _ _, _ => by simp [render, mayBegin]
  | .ifThen _ _, _ => by simp [render, mayBegin, isLetter]
  | .ifElse _ _ _, _ => by simp [render, mayBegin, isLetter]
  | .block _, _ => by simp [render, braced, mayBegin]
  | .function _ _, _ => by simp [render, mayBegin, isLetter]
  | .call f _, h => by
    rw [isPrintable, Bool.and_eq_true] at h
    have hf := f.begins_render h.1
    cases htext : f.render.toList with
    | nil =>
      rw [htext] at hf
      cases hf
    | cons c rest => simpa [render, htext] using hf

theorem Statement.begins_render (s : Statement) (h : s.isPrintable) :
    s.render.toList.head?.any mayBegin := by
  cases s with
  | binding name e => simp [render, mayBegin, isLetter]
  | returning e => simp [render, mayBegin, isLetter]
  | block b => simp [render, braced, mayBegin]
  | expression e =>
    rw [isPrintable, Bool.and_eq_true] at h
    exact e.begins_render h.1

/-- A statement that may stand behind an expression is not taken into it. -/
lemma head?_ne_of_mayPrecede {s t : Statement} (hs : s.isExpression) (h : s.mayPrecede t)
    (ht : t.isPrintable) (us : List Token) :
    (t.tokens ++ us).head? ≠ some (.symbol .leftParen) ∧
      (t.tokens ++ us).head? ≠ some (.symbol .minus) := by
  rw [Statement.mayPrecede, hs, Bool.not_true, Bool.false_or, Bool.not_eq_true'] at h
  constructor
  · intro hhead
    obtain ⟨-, hbegins⟩ | ⟨hne, -⟩ := beginsWith_of_stream (t.begins_render ht) hhead
    · rw [h] at hbegins
      cases hbegins
    · cases hne
  · intro hhead
    obtain ⟨hne, -⟩ | ⟨hne, -⟩ := beginsWith_of_stream (t.begins_render ht) hhead <;> cases hne

/-! ### The form that is written -/

/-- An operator with its operands is written in parentheses. -/
lemma exists_inParens {c : Expression} {o : Bool} {ts : List Token} (hc : c.isOperation)
    (h : Form (.expression c .call o) ts) :
    ∃ l o' us, ts = Form.inParens us ∧ Form (.expression c l o') us := by
  generalize hl : Level.call = l at h
  cases h with
  | grouped h => exact ⟨_, _, _, rfl, h⟩
  | binary op => cases op <;> cases hl
  | unary => cases hl
  | _ => cases hc

lemma form_furtherArguments {es : List Expression}
    (h : ∀ e ∈ es, ∃ o, Form (.expression e .call o) e.tokens) :
    Form (.furtherArguments es) (es.flatMap fun e => .symbol .comma :: e.tokens) := by
  induction es with
  | nil => exact .noFurther
  | cons e es ih =>
    obtain ⟨⟨o, he⟩, hes⟩ := List.forall_mem_cons.1 h
    exact .further he (ih hes)

lemma intercalate_tokens (e : Expression) (es : List Expression) :
    [.symbol .comma].intercalate ((e :: es).map Expression.tokens) =
      e.tokens ++ es.flatMap fun e => .symbol .comma :: e.tokens := by
  induction es generalizing e with
  | nil => simp
  | cons e' es ih =>
    simp only [List.map_cons, List.intercalate_cons_cons, List.flatMap_cons] at ih ⊢
    rw [ih, List.append_assoc, List.singleton_append, List.cons_append]

lemma form_arguments {es : List Expression}
    (h : ∀ e ∈ es, ∃ o, Form (.expression e .call o) e.tokens) :
    Form (.arguments es) ([.symbol .comma].intercalate (es.map Expression.tokens)) := by
  cases es with
  | nil => exact .noArguments
  | cons e es =>
    obtain ⟨⟨o, he⟩, hes⟩ := List.forall_mem_cons.1 h
    rw [intercalate_tokens]
    exact .someArguments he (form_furtherArguments hes)

/-- The tokens of a statement are a form of it, with a semicolon behind unless it is a block or an
expression that stands alone. -/
def Statement.IsWritten (s : Statement) : Prop :=
  ∃ o ts, Form (.statement s o) ts ∧
    (s.tokens = ts ++ [.symbol .semicolon] ∨ s.tokens = ts ∧ (s.isBlock ∨ s.isExpression))

/-- A statement in front of statements. -/
lemma Statement.IsWritten.cons {s : Statement} {ss : List Statement} {us : List Token}
    (hs : s.IsWritten) (hss : Form (.statements ss) us)
    (hnext : s.isExpression →
      us.head? ≠ some (.symbol .leftParen) ∧ us.head? ≠ some (.symbol .minus)) :
    Form (.statements (s :: ss)) (s.tokens ++ us) := by
  obtain ⟨o, ts, hform, htokens | ⟨htokens, hkind⟩⟩ := hs
  · rw [htokens, List.append_assoc]
    exact .ended hform hss
  · rw [htokens]
    exact .unended hform hss (hkind.imp_right hnext)

mutual

/-- The tokens of a printable expression are a form of it that needs no parentheses. -/
theorem Expression.form_tokens :
    ∀ e : Expression, e.isPrintable → ∃ o, Form (.expression e .call o) e.tokens
  | .identifier name, h => by
    rw [Expression.tokens, Expression.render, stream_name h]
    exact ⟨_, .identifier name⟩
  | .integer n, h => by
    simp only [Expression.isPrintable, decide_eq_true_eq] at h
    obtain ⟨k, hk, hrender⟩ := digits_of_nonneg h
    rw [Expression.tokens, hrender, stream_digits (Decimal.digits_ne_nil k) fun _ =>
      Decimal.isDigit_of_mem_digits]
    exact ⟨_, .integer (by simp [hk])⟩
  | .boolean b, _ => by
    have htruth : (Expression.boolean b).tokens = [Form.truth b] := by
      cases b
      · exact stream_keyword .falseWord
      · exact stream_keyword .trueWord
    rw [htruth]
    exact ⟨_, .boolean b⟩
  | .unary op e, h => by
    obtain ⟨o, he⟩ := e.form_tokens h
    have hequals : ¬ beginsWith '=' e.render := by
      intro hbegins
      have hany := e.begins_render h
      rw [of_decide_eq_true hbegins] at hany
      cases hany
    rw [tokens_unary op hequals]
    exact ⟨_, .grouped (.unary op (by decide) he)⟩
  | .binary op l r, h => by
    rw [Expression.isPrintable, Bool.and_eq_true] at h
    obtain ⟨o, hl⟩ := l.form_tokens h.1
    obtain ⟨o', hr⟩ := r.form_tokens h.2
    rw [tokens_binary]
    exact ⟨_, .grouped (.binary op (Level.le_call _) (by cases op <;> decide) hl hr)⟩
  | .ifThen c t, h => by
    simp only [Expression.isPrintable, Bool.and_eq_true] at h
    obtain ⟨o, hc⟩ := c.form_tokens h.1.2
    obtain ⟨l, o', us, hparens, hform⟩ := exists_inParens h.1.1 hc
    rw [tokens_ifThen, hparens]
    exact ⟨_, .ifThen hform (Statement.form_block t h.2)⟩
  | .ifElse c t e, h => by
    simp only [Expression.isPrintable, Bool.and_eq_true] at h
    obtain ⟨o, hc⟩ := c.form_tokens h.1.1.2
    obtain ⟨l, o', us, hparens, hform⟩ := exists_inParens h.1.1.1 hc
    rw [tokens_ifElse, hparens]
    exact ⟨_, .ifElse hform (Statement.form_block t h.1.2) (Statement.form_block e h.2)⟩
  | .block b, h => by
    rw [tokens_block]
    exact ⟨_, .block (Statement.form_block b h)⟩
  | .function names b, h => by
    rw [Expression.isPrintable, Bool.and_eq_true, List.all_eq_true] at h
    rw [tokens_function names b h.1]
    exact ⟨_, .function names (Statement.form_block b h.2)⟩
  | .call f es, h => by
    rw [Expression.isPrintable, Bool.and_eq_true] at h
    obtain ⟨o, hf⟩ := f.form_tokens h.1
    rw [tokens_call]
    exact ⟨_, .call hf (form_arguments (Expression.form_each es h.2))⟩

theorem Expression.form_each : ∀ es : List Expression, Expression.arePrintable es →
    ∀ e ∈ es, ∃ o, Form (.expression e .call o) e.tokens
  | [], _ => by simp
  | e :: es, h => by
    rw [Expression.arePrintable, Bool.and_eq_true] at h
    exact List.forall_mem_cons.2 ⟨e.form_tokens h.1, Expression.form_each es h.2⟩

/-- The tokens of a printable statement are a form of it. -/
theorem Statement.isWritten : ∀ s : Statement, s.isPrintable → s.IsWritten
  | .binding name e, h => by
    rw [Statement.isPrintable, Bool.and_eq_true] at h
    obtain ⟨o, he⟩ := e.form_tokens h.2
    exact ⟨_, _, .binding name he, Or.inl (tokens_binding e h.1)⟩
  | .returning e, h => by
    obtain ⟨o, he⟩ := e.form_tokens h
    exact ⟨_, _, .returning he, Or.inl (tokens_returning e)⟩
  | .expression e, h => by
    rw [Statement.isPrintable, Bool.and_eq_true, Bool.not_eq_true'] at h
    obtain ⟨o, he⟩ := e.form_tokens h.1
    refine ⟨_, _, .expression he ?_, Or.inr ⟨rfl, Or.inr rfl⟩⟩
    intro hhead
    rw [← List.append_nil e.tokens] at hhead
    obtain ⟨hne, -⟩ | ⟨-, hbegins⟩ := beginsWith_of_stream (e.begins_render h.1) hhead
    · cases hne
    · rw [h.2] at hbegins
      cases hbegins
  | .block b, h =>
    ⟨_, _, .blockStatement (Statement.form_block b h), Or.inr ⟨tokens_blockStatement b, Or.inl rfl⟩⟩

/-- The tokens of the statements of a printable block are a form of them. -/
theorem Statement.form_block : ∀ ss : List Statement, Statement.arePrintable ss →
    Form (.statements ss) (ss.flatMap Statement.tokens)
  | [], _ => .nil
  | s :: ss, h => by
    simp only [Statement.arePrintable, Bool.and_eq_true] at h
    refine (s.isWritten h.1.1).cons (Statement.form_block ss h.2) fun hs => ?_
    cases ss with
    | nil => simp
    | cons t ts =>
      have ht : t.isPrintable := by
        rw [Statement.arePrintable, Bool.and_eq_true, Bool.and_eq_true] at h
        exact h.2.1.1
      exact head?_ne_of_mayPrecede hs h.1.2 ht _

end

/-! ### Programs -/

/-- The tokens of a printable program are a form of it. -/
theorem Program.form_tokens {p : Program} (h : Program.isPrintable p) :
    Form (.statements p) (p.flatMap Statement.tokens) := by
  rw [isPrintable, Bool.and_eq_true, List.all_eq_true, List.all_eq_true] at h
  obtain ⟨heach, hlast⟩ := h
  induction p with
  | nil => exact .nil
  | cons s ss ih =>
    rw [List.forall_mem_cons] at heach
    cases ss with
    | nil => exact (s.isWritten heach.1).cons .nil fun _ => by simp
    | cons t ts =>
      rw [List.dropLast_cons_cons, List.forall_mem_cons] at hlast
      refine (s.isWritten heach.1).cons (ih heach.2 hlast.2) fun hs => ?_
      rw [hs] at hlast
      cases hlast.1

/-- A statement in front of another one in a program ends with a token that does not grow. -/
lemma not_grows_of_isPrintable {s : Statement} (h : s.isPrintable) (hs : ¬ s.isExpression)
    {t : Token} (ht : t ∈ s.tokens.getLast?) (d : Char) : ¬ t.grows d := by
  cases s with
  | binding name e =>
    rw [Statement.isPrintable, Bool.and_eq_true] at h
    rw [tokens_binding e h.1, ← List.cons_append, ← List.cons_append, ← List.cons_append,
      List.getLast?_concat, Option.mem_some_iff] at ht
    subst ht
    simp [grows, Symbol.withEquals?]
  | returning e =>
    rw [tokens_returning, ← List.cons_append, List.getLast?_concat, Option.mem_some_iff] at ht
    subst ht
    simp [grows, Symbol.withEquals?]
  | block b =>
    rw [tokens_blockStatement, Form.inBraces, ← List.cons_append, List.getLast?_concat,
      Option.mem_some_iff] at ht
    subst ht
    simp [grows, Symbol.withEquals?]
  | expression e => exact absurd rfl hs

/-- The tokens of the text of a printable program are those of its statements. -/
theorem Program.stream_render {p : Program} (h : Program.isPrintable p) :
    stream (Program.render p).toList = p.flatMap Statement.tokens := by
  have htext : (Program.render p).toList = p.flatMap fun s => s.render.toList := by
    rw [Program.render, String.toList_join, List.flatMap_map]
  rw [isPrintable, Bool.and_eq_true, List.all_eq_true, List.all_eq_true] at h
  obtain ⟨heach, hlast⟩ := h
  rw [htext]
  clear htext
  induction p with
  | nil => exact stream_empty
  | cons s ss ih =>
    rw [List.forall_mem_cons] at heach
    cases ss with
    | nil => simp [Statement.tokens]
    | cons t ts =>
      rw [List.dropLast_cons_cons, List.forall_mem_cons, Bool.not_eq_true'] at hlast
      rw [List.flatMap_cons, stream_append_of_not_grows, ih heach.2 hlast.2, List.flatMap_cons]
      · rfl
      · intro u hu d _
        exact not_grows_of_isPrintable heach.1 (by rw [hlast.1]; decide) hu d

/-- A printable program is read back from its text. -/
theorem parse_render {p : Program} (h : Program.isPrintable p) :
    parse (Program.render p) = (p, []) := by
  have hform := Program.form_tokens h
  have hsource : ofSource (Program.render p) = p.flatMap Statement.tokens := by
    rw [ofSource, upToEnd_fst, Program.stream_render h, List.takeWhile_eq_self_iff]
    exact forall_ne_endOfInput hform.endOfInput_notMem
  exact parse_of_form (hsource ▸ hform)

/-- A function with a conditional in it, an empty block, and a call with a block as its argument. -/
theorem parse_render_function :
    Program.isPrintable [.binding "f" (.function ["x"] [.expression (.ifThen
          (.unary .not (.identifier "x")) [.returning (.unary .negate (.integer 1))])]),
        .block [],
        .expression (.call (.identifier "f") [.block [.expression (.identifier "y")]])] ∧
      parse (Program.render [.binding "f" (.function ["x"] [.expression (.ifThen
          (.unary .not (.identifier "x")) [.returning (.unary .negate (.integer 1))])]),
        .block [],
        .expression (.call (.identifier "f") [.block [.expression (.identifier "y")]])]) =
      ([.binding "f" (.function ["x"] [.expression (.ifThen
          (.unary .not (.identifier "x")) [.returning (.unary .negate (.integer 1))])]),
        .block [], .expression (.call (.identifier "f") [.block [.expression (.identifier "y")]])],
        []) :=
  (fun h => ⟨h, parse_render h⟩) (by decide)

end TreeWalk
