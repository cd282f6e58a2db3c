/-
# What is read is a form

Whenever a parser of the grammar gives a tree, the tokens it has read are a form of that tree, and
it has stopped where the tree ends.

The heart of the proof is the loop that takes in operators and calls (`Grammar.continued`).  Its
invariant is that the tokens read so far are a form of the expression built so far, of a level at
which the next token cannot be taken into one of its parts.  The first operand satisfies it, since
nothing binds more tightly than a call, and a continuation restores it.
-/
import TreeWalk.Proofs.Form

namespace TreeWalk

/-- The parsers for parts give only what stands in the text. -/
structure Parts.Sound (p : Parts) : Prop where
  expression : ∀ {lv c e c'}, (p.expression lv).Ends c (.ok e) c' → c.HoldsExpression lv e c'
  block : ∀ {c ss c'}, p.block.Ends c (.ok ss) c' → c.HoldsBlock ss c'

namespace Grammar

open TreeWalk.Parser TreeWalk.Cursor

variable {p : Parts} {c c' : Cursor} {s : Statement} {e : Expression} {ss : List Statement}

/-! ### Statements -/

/-- What stands behind the value of a statement. -/
lemma ended_sound {q : Parser Expression} {f : Expression → Statement}
    (h : (q >>= fun e => skip (.symbol .semicolon) >>= fun _ => pure (f e)).Ends c (.ok s) c') :
    ∃ e c₁, q.Ends c (.ok e) c₁ ∧ s = f e ∧ c' = c₁.skipping (.symbol .semicolon) := by
  obtain ⟨e, c₁, he, h⟩ := ends_bind_ok.1 h
  rw [ends_skip_bind, ends_pure] at h
  obtain ⟨hs, rfl⟩ := h
  exact ⟨e, c₁, he, (Except.ok.inj hs).symm, rfl⟩

lemma binding_sound (hp : p.Sound) (hc : c.peek = .keyword .letWord)
    (h : (binding p).Ends c (.ok s) c') : c.HoldsStatement s c' := by
  rw [binding, ends_next_bind, ends_peek_bind] at h
  split at h
  · next name hname =>
    rw [ends_next_bind, ends_expect_bind_ok] at h
    obtain ⟨hassign, h⟩ := h
    obtain ⟨e, c₁, he, rfl, rfl⟩ := ended_sound h
    obtain ⟨l, o, ts, hform, -, hpass, hstop⟩ := hp.expression he
    exact ⟨_, _, c₁, .binding name hform,
      .plain hc rfl (.plain hname rfl (.plain hassign rfl hpass)), Or.inr hstop, rfl⟩
  · cases (ends_fail.1 h).1

lemma returning_sound (hp : p.Sound) (hc : c.peek = .keyword .returnWord)
    (h : (returning p).Ends c (.ok s) c') : c.HoldsStatement s c' := by
  rw [returning, ends_next_bind] at h
  obtain ⟨e, c₁, he, rfl, rfl⟩ := ended_sound h
  obtain ⟨l, o, ts, hform, -, hpass, hstop⟩ := hp.expression he
  exact ⟨_, _, c₁, .returning hform, .plain hc rfl hpass, Or.inr hstop, rfl⟩

lemma blockStatement_sound (hp : p.Sound) (h : (blockStatement p).Ends c (.ok s) c') :
    c.HoldsStatement s c' := by
  obtain ⟨body, c₁, hbody, h⟩ := ends_bind_ok.1 h
  rw [ends_skip_bind, ends_pure] at h
  obtain ⟨hs, rfl⟩ := h
  obtain rfl := Except.ok.inj hs
  obtain ⟨ts, hform, hpass⟩ := hp.block hbody
  exact ⟨_, _, c₁, .blockStatement hform, hpass, Or.inl rfl, rfl⟩

lemma expressionStatement_sound (hp : p.Sound) (hc : c.peek ≠ .symbol .leftBrace)
    (h : (expressionStatement p).Ends c (.ok s) c') : c.HoldsStatement s c' := by
  obtain ⟨e, c₁, he, rfl, rfl⟩ := ended_sound h
  obtain ⟨l, o, ts, hform, -, hpass, hstop⟩ := hp.expression he
  refine ⟨o, ts, c₁, .expression hform fun hhead => hc ?_, hpass, Or.inr hstop, rfl⟩
  obtain ⟨us, rfl⟩ := List.head?_eq_some_iff.1 hhead
  exact hpass.peek_eq

theorem statement_sound (hp : p.Sound) (h : (statement p).Ends c (.ok s) c') :
    c.HoldsStatement s c' := by
  rw [statement, ends_called, ends_peek_bind] at h
  split at h
  · next hc => exact binding_sound hp hc h
  · next hc => exact returning_sound hp hc h
  · exact blockStatement_sound hp h
  · next hc => exact expressionStatement_sound hp hc h

/-! ### Blocks -/

lemma not_ends_unclosed_ok {α : Type} {a : α} : ¬ (unclosed : Parser α).Ends c (.ok a) c' := by
  intro h
  rw [unclosed, ends_next_bind, ends_fail] at h
  cases h.1

lemma statements_sound (hp : p.Sound) {n : Nat} (h : (statements p n).Ends c (.ok ss) c') :
    ∃ ts, Form (.statements ss) ts ∧ c.Passes (ts ++ [.symbol .rightBrace]) c' := by
  induction n generalizing c ss with
  | zero => exact absurd h not_ends_unclosed_ok
  | succ n ih =>
    rw [statements, ends_peek_bind] at h
    split at h
    · next hc =>
      rw [ends_next_bind, ends_leave_bind, ends_pure] at h
      obtain ⟨hss, rfl⟩ := h
      obtain rfl := Except.ok.inj hss
      exact ⟨[], .nil, pass_of_rightBrace hc ▸ .closed hc⟩
    · exact absurd h not_ends_unclosed_ok
    · obtain ⟨s, c₁, hs, h⟩ := ends_bind_ok.1 h
      obtain ⟨rest, hrest, rfl⟩ := ends_map_ok.1 h
      obtain ⟨ts, hform, hpass⟩ := ih hrest
      exact (statement_sound hp hs).cons hform hpass

theorem block_sound (hp : p.Sound) (h : (block p).Ends c (.ok ss) c') : c.HoldsBlock ss c' := by
  rw [block, ends_expect_bind_ok] at h
  obtain ⟨hc, h⟩ := h
  rw [ends_enter_bind, ends_unread_bind, ← pass_of_leftBrace hc] at h
  obtain ⟨ts, hform, hpass⟩ := statements_sound hp h
  exact ⟨ts, hform, .opened hc hpass⟩

/-! ### Lists of arguments and parameters -/

/-- Items with a comma in front of each; `W a ts` says that `ts` spells the item `a`. -/
inductive Further {α : Type} (W : α → List Token → Prop) : List α → List Token → Prop
  | nil : Further W [] []
  | cons {a : α} {as : List α} {ts us : List Token} (h : W a ts) (h' : Further W as us) :
    Further W (a :: as) (.symbol .comma :: (ts ++ us))

lemma moreItems_sound {α : Type} {item : Parser α} {W : α → List Token → Prop}
    (hitem : ∀ {c a c'}, item.Ends c (.ok a) c' → ∃ ts, W a ts ∧ c.Passes ts c')
    {n : Nat} {as : List α} (h : (moreItems item n).Ends c (.ok as) c') :
    ∃ ts, Further W as ts ∧ c.Passes ts c' := by
  induction n generalizing c as with
  | zero =>
    obtain ⟨has, rfl⟩ := ends_pure.1 h
    obtain rfl := Except.ok.inj has
    exact ⟨[], .nil, .refl _⟩
  | succ n ih =>
    rw [moreItems, ends_peek_bind] at h
    split at h
    · next hc =>
      rw [ends_next_bind] at h
      obtain ⟨a, c₁, ha, h⟩ := ends_bind_ok.1 h
      obtain ⟨rest, hrest, rfl⟩ := ends_map_ok.1 h
      obtain ⟨ts, hts, hpass⟩ := hitem ha
      obtain ⟨us, hus, hpass'⟩ := ih hrest
      exact ⟨_, .cons hts hus, .plain hc rfl (hpass.trans hpass')⟩
    · obtain ⟨has, rfl⟩ := ends_pure.1 h
      obtain rfl := Except.ok.inj has
      exact ⟨[], .nil, .refl _⟩

/-- A list in parentheses, behind the parenthesis that opens it. -/
lemma items_sound {α : Type} {item : Parser α} {W : α → List Token → Prop}
    (hitem : ∀ {c a c'}, item.Ends c (.ok a) c' → ∃ ts, W a ts ∧ c.Passes ts c')
    {as : List α} (h : (items item).Ends c (.ok as) c') :
    (as = [] ∧ c.Passes [.symbol .rightParen] c') ∨
      ∃ a rest ts us, as = a :: rest ∧ W a ts ∧ Further W rest us ∧
        c.Passes (ts ++ us ++ [.symbol .rightParen]) c' := by
  rw [items, ends_peek_bind] at h
  split at h
  · next hc =>
    rw [ends_next_bind, ends_pure] at h
    obtain ⟨has, rfl⟩ := h
    exact Or.inl ⟨(Except.ok.inj has).symm, .single hc rfl⟩
  · obtain ⟨a, c₁, ha, h⟩ := ends_bind_ok.1 h
    rw [ends_unread_bind] at h
    obtain ⟨rest, c₂, hrest, h⟩ := ends_bind_ok.1 h
    rw [ends_expect_bind_ok, ends_pure] at h
    obtain ⟨hc₂, has, rfl⟩ := h
    obtain ⟨ts, hts, hpass⟩ := hitem ha
    obtain ⟨us, hus, hpass'⟩ := moreItems_sound hitem hrest
    exact Or.inr ⟨a, rest, ts, us, (Except.ok.inj has).symm, hts, hus,
      (hpass.trans hpass').trans (.single hc₂ rfl)⟩

lemma furtherArguments_iff {es : List Expression} {us : List Token} :
    Further (fun e ts => ∃ l o, Form (.expression e l o) ts) es us ↔
      Form (.furtherArguments es) us := by
  constructor
  · intro h
    induction h with
    | nil => exact .noFurther
    | cons h h' ih => exact .further h.choose_spec.choose_spec ih
  · intro h
    generalize hph : Phrase.furtherArguments es = ph at h
    induction h generalizing es with
    | noFurther =>
      cases hph
      exact .nil
    | further h h' ih ih' =>
      cases hph
      exact .cons ⟨_, _, h⟩ (ih' rfl)
    | _ => cases hph

lemma arguments_sound (hp : p.Sound) {es : List Expression}
    (h : (items (p.expression .lowest)).Ends c (.ok es) c') :
    ∃ us, Form (.arguments es) us ∧ c.Passes (us ++ [.symbol .rightParen]) c' := by
  have hitem : ∀ {c e c'}, (p.expression .lowest).Ends c (.ok e) c' →
      ∃ ts, (∃ l o, Form (.expression e l o) ts) ∧ c.Passes ts c' := by
    intro c e c' h
    obtain ⟨l, o, ts, hform, -, hpass, -⟩ := hp.expression h
    exact ⟨ts, ⟨l, o, hform⟩, hpass⟩
  rcases items_sound hitem h with ⟨rfl, hpass⟩ | ⟨e, rest, ts, us, rfl, ⟨l, o, hts⟩, hus, hpass⟩
  · exact ⟨[], .noArguments, hpass⟩
  · exact ⟨ts ++ us, .someArguments hts (furtherArguments_iff.1 hus), hpass⟩

/-- The tokens of parameters, by their first one. -/
lemma parameters_cons {name : String} {names : List String} {us : List Token}
    (h : Further (fun name ts => ts = [.ident name]) names us) :
    Form.parameters (name :: names) = .ident name :: us := by
  induction h generalizing name with
  | nil => rfl
  | @cons name' names ts us hts h ih =>
    subst hts
    rw [Form.parameters, List.map_cons, List.map_cons, List.intersperse_cons_cons, ← List.map_cons,
      List.singleton_append]
    exact congrArg (fun us => Token.ident name :: Token.symbol .comma :: us) ih

lemma parameter_sound {name : String} (h : (parameter : Parser String).Ends c (.ok name) c') :
    c.Passes [.ident name] c' := by
  rw [parameter, ends_peek_bind, ends_next_bind] at h
  split at h
  · next hc =>
    obtain ⟨hname, rfl⟩ := ends_pure.1 h
    obtain rfl := Except.ok.inj hname
    exact .single hc rfl
  · cases (ends_fail.1 h).1

lemma parameters_sound {names : List String}
    (h : (items parameter : Parser (List String)).Ends c (.ok names) c') :
    c.Passes (Form.parameters names ++ [.symbol .rightParen]) c' := by
  have hitem : ∀ {c name c'}, (parameter : Parser String).Ends c (.ok name) c' →
      ∃ ts, ts = [.ident name] ∧ c.Passes ts c' :=
    fun h => ⟨_, rfl, parameter_sound h⟩
  rcases items_sound hitem h with ⟨rfl, hpass⟩ | ⟨name, rest, ts, us, rfl, rfl, hus, hpass⟩
  · exact hpass
  · rw [parameters_cons hus]
    exact hpass

/-! ### Operands -/

lemma integer_sound {digits : String} (hc : c.peek = .int digits)
    (h : (integer digits : Parser Expression).Ends c (.ok e) c') :
    Form (.expression e .call false) [.int digits] ∧ c.Passes [.int digits] c' := by
  rw [integer, ends_next_bind] at h
  split at h
  · next n hn =>
    obtain ⟨he, rfl⟩ := ends_pure.1 h
    obtain rfl := Except.ok.inj he
    exact ⟨.integer (Integer.ofInt?_eq_some_iff.1 hn), .single hc rfl⟩
  · cases (ends_fail.1 h).1

lemma grouped_sound (hp : p.Sound) (hc : c.peek = .symbol .leftParen)
    (h : (grouped p).Ends c (.ok e) c') :
    ∃ ts, Form (.expression e .call false) ts ∧ c.Passes ts c' := by
  rw [grouped, ends_next_bind] at h
  obtain ⟨e', c₁, he, h⟩ := ends_bind_ok.1 h
  obtain ⟨l, o, ts, hform, -, hpass, -⟩ := hp.expression he
  rw [ends_expect_bind_ok, ends_pure] at h
  obtain ⟨hc₁, heq, rfl⟩ := h
  obtain rfl := Except.ok.inj heq
  exact ⟨_, .grouped hform, .plain hc rfl (hpass.trans (.single hc₁ rfl))⟩

lemma conditional_sound (hp : p.Sound) (hc : c.peek = .keyword .ifWord)
    (h : (conditional p).Ends c (.ok e) c') :
    ∃ o ts, Form (.expression e .call o) ts ∧ c.Passes ts c' ∧
      ¬ (o ∧ c'.peek = .keyword .elseWord) := by
  rw [conditional, ends_next_bind, ends_expect_bind_ok] at h
  obtain ⟨hopen, h⟩ := h
  obtain ⟨condition, c₁, hcondition, h⟩ := ends_bind_ok.1 h
  obtain ⟨l, o, ts, hts, -, hpass, -⟩ := hp.expression hcondition
  rw [ends_expect_bind_ok] at h
  obtain ⟨hclose, h⟩ := h
  have hparens : c.Passes (.keyword .ifWord :: Form.inParens ts) c₁.next :=
    .plain hc rfl (.plain hopen rfl (hpass.trans (.single hclose rfl)))
  obtain ⟨consequence, c₂, hconsequence, h⟩ := ends_bind_ok.1 h
  obtain ⟨us, hus, hpass'⟩ := block_sound hp hconsequence
  rw [ends_peek_bind] at h
  split at h
  · next helse =>
    rw [ends_next_bind] at h
    obtain ⟨alternative, halternative, rfl⟩ := ends_map_ok.1 h
    obtain ⟨vs, hvs, hpass''⟩ := block_sound hp halternative
    exact ⟨_, _, .ifElse hts hus hvs, (hparens.trans hpass').trans (.plain helse rfl hpass''),
      by simp⟩
  · next helse =>
    obtain ⟨he, rfl⟩ := ends_pure.1 h
    obtain rfl := Except.ok.inj he
    exact ⟨_, _, .ifThen hts hus, hparens.trans hpass', fun h => helse h.2⟩

lemma function_sound (hp : p.Sound) (hc : c.peek = .keyword .fnWord)
    (h : (function p).Ends c (.ok e) c') :
    ∃ ts, Form (.expression e .call false) ts ∧ c.Passes ts c' := by
  rw [function, ends_next_bind, ends_expect_bind_ok] at h
  obtain ⟨hopen, h⟩ := h
  obtain ⟨names, c₁, hnames, h⟩ := ends_bind_ok.1 h
  obtain ⟨body, hbody, rfl⟩ := ends_map_ok.1 h
  obtain ⟨ts, hts, hpass⟩ := block_sound hp hbody
  have hparens : c.Passes (.keyword .fnWord :: Form.inParens (Form.parameters names)) c₁ :=
    .plain hc rfl (.plain hopen rfl (parameters_sound hnames))
  exact ⟨_, .function names hts, hparens.trans hpass⟩

lemma unary_sound (hp : p.Sound) (op : UnaryOp) (hc : c.peek = .symbol op.sign)
    (h : (unary p op).Ends c (.ok e) c') :
    ∃ o ts, Form (.expression e .unary o) ts ∧ c.Passes ts c' ∧ ¬ c'.peek.Extends .unary o := by
  rw [unary, ends_next_bind] at h
  obtain ⟨e', he, rfl⟩ := ends_map_ok.1 h
  obtain ⟨l, o, ts, hform, hl, hpass, hstop⟩ := hp.expression he
  have hl : .unary ≤ l := by
    simp only [Level.Admits, Level.lt_def, Level.le_def] at *
    omega
  exact ⟨o, _, .unary op hl hform, .plain hc (by simp) hpass, hstop⟩

lemma not_ends_noOperand_ok : ¬ (noOperand : Parser Expression).Ends c (.ok e) c' := by
  intro h
  rw [noOperand, ends_peek_bind, ends_next_bind, ends_fail] at h
  cases h.1

/-- What an operand leaves behind: a form that can be read above any level, and a token that is
not taken into a part of it. -/
def Left (c : Cursor) (lv : Level) (e : Expression) (c' : Cursor) : Prop :=
  ∃ l o ts, Form (.expression e l o) ts ∧ lv.Admits l ∧ c.Passes ts c' ∧ ¬ c'.peek.Extends l o

lemma left_of_call {o : Bool} {ts : List Token} (lv : Level)
    (h : Form (.expression e .call o) ts) (hpass : c.Passes ts c')
    (helse : ¬ (o ∧ c'.peek = .keyword .elseWord)) : Left c lv e c' :=
  ⟨.call, o, ts, h, lv.admits_call, hpass,
    Token.not_extends_iff.2 ⟨Token.not_continues_call _, helse⟩⟩

/-- Nothing more is taken in. -/
lemma Left.stop {lv : Level} {left : Expression} {c₀ : Cursor} (h : Left c₀ lv left c)
    (hstop : ¬ c.peek.Continues lv) (hend : (pure left : Parser Expression).Ends c (.ok e) c') :
    c₀.HoldsExpression lv e c' := by
  obtain ⟨he, rfl⟩ := ends_pure.1 hend
  obtain rfl := Except.ok.inj he
  obtain ⟨l, o, ts, hform, hl, hpass, hext⟩ := h
  exact ⟨l, o, ts, hform, hl, hpass,
    Token.not_extends_iff.2 ⟨hstop, (Token.not_extends_iff.1 hext).2⟩⟩

theorem operand_sound (hp : p.Sound) (lv : Level) (h : (operand p).Ends c (.ok e) c') :
    Left c lv e c' := by
  rw [operand, ends_peek_bind] at h
  split at h
  · next name hc =>
    rw [ends_next_bind, ends_pure] at h
    obtain ⟨he, rfl⟩ := h
    obtain rfl := Except.ok.inj he
    exact left_of_call lv (.identifier name) (.single hc rfl) (by simp)
  · next digits hc =>
    obtain ⟨hform, hpass⟩ := integer_sound hc h
    exact left_of_call lv hform hpass (by simp)
  · next hc =>
    rw [ends_next_bind, ends_pure] at h
    obtain ⟨he, rfl⟩ := h
    obtain rfl := Except.ok.inj he
    exact left_of_call lv (.boolean true) (.single hc rfl) (by simp)
  · next hc =>
    rw [ends_next_bind, ends_pure] at h
    obtain ⟨he, rfl⟩ := h
    obtain rfl := Except.ok.inj he
    exact left_of_call lv (.boolean false) (.single hc rfl) (by simp)
  · next hc =>
    obtain ⟨o, ts, hform, hpass, helse⟩ := conditional_sound hp hc h
    exact left_of_call lv hform hpass helse
  · next hc =>
    obtain ⟨ts, hform, hpass⟩ := function_sound hp hc h
    exact left_of_call lv hform hpass (by simp)
  · next hc =>
    obtain ⟨o, ts, hform, hpass, hstop⟩ := unary_sound hp .not hc h
    exact ⟨.unary, o, ts, hform, Or.inr (by decide), hpass, hstop⟩
  · next hc =>
    obtain ⟨o, ts, hform, hpass, hstop⟩ := unary_sound hp .negate hc h
    exact ⟨.unary, o, ts, hform, Or.inr (by decide), hpass, hstop⟩
  · next hc =>
    obtain ⟨ts, hform, hpass⟩ := grouped_sound hp hc h
    exact left_of_call lv hform hpass (by simp)
  · obtain ⟨body, hbody, rfl⟩ := ends_map_ok.1 h
    obtain ⟨ts, hform, hpass⟩ := block_sound hp hbody
    exact left_of_call lv (.block hform) hpass (by simp)
  · exact absurd h not_ends_noOperand_ok

/-! ### Operators and calls -/

/-- A continuation makes a form out of the form in front of it. -/
lemma continuation_sound (hp : p.Sound) {c₀ : Cursor} {lv : Level} {left : Expression}
    {k : Continuation} (hleft : Left c₀ lv left c) (hk : Continuation.ofToken? c.peek = some k)
    (hlv : lv < k.level) (h : (continuation p left k).Ends c (.ok e) c') :
    Left c₀ lv e c' ∧ c'.rest.length < c.rest.length := by
  obtain ⟨l, o, ts, hform, -, hpass, hstop⟩ := hleft
  -- no part of the form takes the token in, so the whole form is its left operand
  have hl : k.level ≤ l := Token.level_le_of_not_extends hstop hk
  cases k with
  | operator op =>
    have hc : c.peek = .symbol op.sign := Continuation.eq_sign_of_ofToken? hk
    rw [continuation, ends_called, binary, ends_next_bind] at h
    obtain ⟨right, hright, rfl⟩ := ends_map_ok.1 h
    obtain ⟨r, o', us, hform', hr, hpass', hstop'⟩ := hp.expression hright
    have hop : c.Passes (.symbol op.sign :: us) c' := .plain hc (by simp) hpass'
    refine ⟨⟨op.level, o', _, .binary op hl (BinaryOp.admits_of_level.1 hr) hform hform',
      Or.inl hlv, hpass.trans hop, hstop'⟩, ?_⟩
    simp [hop.length_eq]
  | arguments =>
    have hc : c.peek = .symbol .leftParen := Continuation.eq_leftParen_of_ofToken? hk
    obtain rfl := Level.eq_call_of_le hl
    rw [continuation, call, ends_next_bind] at h
    obtain ⟨arguments, harguments, rfl⟩ := ends_map_ok.1 h
    obtain ⟨us, hus, hpass'⟩ := arguments_sound hp harguments
    have hparens : c.Passes (Form.inParens us) c' := .plain hc rfl hpass'
    refine ⟨left_of_call lv (.call hform hus) (hpass.trans hparens) (by simp), ?_⟩
    simp [hparens.length_eq, Form.inParens]

lemma continued_sound (hp : p.Sound) {c₀ : Cursor} {lv : Level} {n : Nat} {left : Expression}
    (hn : c.rest.length ≤ n) (hleft : Left c₀ lv left c)
    (h : (continued p lv n left).Ends c (.ok e) c') : c₀.HoldsExpression lv e c' := by
  induction n generalizing c left with
  | zero =>
    -- the bound runs out only where the tokens do, and an end of input continues nothing
    have hrest : c.rest = [] := List.eq_nil_of_length_eq_zero (Nat.le_zero.1 hn)
    have hnone : Continuation.ofToken? c.peek = none := by simp [Cursor.peek, hrest]; rfl
    exact hleft.stop (Token.not_continues_of_none hnone) h
  | succ n ih =>
    rw [continued, ends_peek_bind] at h
    split at h
    · next k hk =>
      split at h
      · next hlv =>
        obtain ⟨e', c₁, he, h⟩ := ends_bind_ok.1 h
        obtain ⟨hleft', hlength⟩ := continuation_sound hp hleft hk hlv he
        exact ih (by omega) hleft' h
      · next hlv => exact hleft.stop (Token.not_continues_of_level_le hk (Level.not_lt.1 hlv)) h
    · next hk => exact hleft.stop (Token.not_continues_of_none hk) h

theorem expression_sound (hp : p.Sound) {lv : Level} (h : (expression p lv).Ends c (.ok e) c') :
    c.HoldsExpression lv e c' := by
  rw [expression, ends_called] at h
  obtain ⟨left, c₁, hleft, h⟩ := ends_bind_ok.1 h
  rw [ends_unread_bind] at h
  exact continued_sound hp (Nat.le_refl _) (operand_sound hp lv hleft) h

end Grammar

/-- The parsers for the parts of any text give only what stands in it. -/
theorem Parts.sound_ofDepth (n : Nat) : (Parts.ofDepth n).Sound := by
  induction n with
  | zero =>
    refine ⟨fun h => ?_, fun h => ?_⟩
    · exact absurd h Grammar.not_ends_noOperand_ok
    · cases h.1
  | succ n ih => exact ⟨Grammar.expression_sound ih, Grammar.block_sound ih⟩

end TreeWalk
