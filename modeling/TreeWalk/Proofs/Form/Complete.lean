/-
# Forms are read

A form of a tree that stands at a place is read as that tree, whatever stands behind it, as long as
the next token does not belong to it.  With the converse in `TreeWalk.Proofs.Form.Sound`, the
parsers of the grammar give a tree just where a form of it stands.

An expression is read from left to right, while its form may be nested to the left.  So the main
statement, `expression_of_form`, speaks of what comes next: if reading goes on behind a form with
the expression it spells as the left operand, then this is how reading goes on from the beginning.
-/
import TreeWalk.Proofs.Form.Sound

namespace TreeWalk

/-- The parsers for parts give what stands in a text of at most `n` tokens. -/
structure Parts.Complete (p : Parts) (n : Nat) : Prop where
  expression : ∀ {lv c e c'}, lv < .call → c.rest.length ≤ n → c.HoldsExpression lv e c' →
    (p.expression lv).Ends c (.ok e) c'
  block : ∀ {c ss c'}, c.rest.length ≤ n → c.HoldsBlock ss c' → p.block.Ends c (.ok ss) c'

namespace Grammar

open TreeWalk.Parser TreeWalk.Cursor

variable {p : Parts} {n : Nat} {c c₁ c' : Cursor} {s : Statement} {e : Expression}
  {ss : List Statement} {l lv : Level} {o : Bool} {ts us : List Token}

/-! ### Statements -/

lemma ended_complete {q : Parser Expression} (f : Expression → Statement)
    (h : q.Ends c (.ok e) c₁) :
    (q >>= fun e => skip (.symbol .semicolon) >>= fun _ => pure (f e)).Ends c (.ok (f e))
      (c₁.skipping (.symbol .semicolon)) := by
  rw [ends_bind_of_ok h, ends_skip_bind]
  exact ⟨rfl, rfl⟩

theorem statement_complete (hp : p.Complete n) (hn : c.rest.length ≤ n)
    (h : c.HoldsStatement s c') : (statement p).Ends c (.ok s) c' := by
  have hfirst := h.beginsStatement
  obtain ⟨o, ts, c₁, hform, hpass, hstop, rfl⟩ := h
  rw [statement, ends_called, ends_peek_bind]
  cases hform with
  | binding name hform =>
    obtain ⟨hlet, hpass⟩ := (passes_plain rfl).1 hpass
    obtain ⟨hname, hpass⟩ := (passes_plain rfl).1 hpass
    obtain ⟨hassign, hpass⟩ := (passes_plain rfl).1 hpass
    simp only [hlet, binding, ends_next_bind, ends_peek_bind, hname, ends_expect_of_eq hassign]
    have hfollow := hstop.resolve_left (by simp [Statement.isBlock])
    refine ended_complete _ (hp.expression (by decide) (by simp; omega) ?_)
    exact ⟨_, _, _, hform, hform.admits_lowest, hpass, hfollow⟩
  | returning hform =>
    obtain ⟨hreturn, hpass⟩ := (passes_plain rfl).1 hpass
    simp only [hreturn, returning, ends_next_bind]
    have hfollow := hstop.resolve_left (by simp [Statement.isBlock])
    refine ended_complete _ (hp.expression (by decide) (by simp; omega) ?_)
    exact ⟨_, _, _, hform, hform.admits_lowest, hpass, hfollow⟩
  | @expression e _ _ _ hform hts =>
    obtain ⟨t, us, rfl, ht⟩ := hform.exists_first
    have hc : c.peek = t := hpass.peek_eq
    have hend : (expressionStatement p).Ends c (.ok (.expression e))
        (c₁.skipping (.symbol .semicolon)) := by
      have hfollow := hstop.resolve_left (by simp [Statement.isBlock])
      refine ended_complete _ (hp.expression (by decide) hn ?_)
      exact ⟨_, _, _, hform, hform.admits_lowest, hpass, hfollow⟩
    rw [hc]
    split
    · cases ht
    · cases ht
    · exact absurd rfl hts
    · exact hend
  | blockStatement hform =>
    have hc : c.peek = .symbol .leftBrace := hpass.peek_eq
    simp only [hc, blockStatement]
    rw [ends_bind_of_ok (hp.block hn ⟨_, hform, hpass⟩), ends_skip_bind]
    exact ⟨rfl, rfl⟩

/-! ### Blocks -/

lemma statements_complete (hp : p.Complete n) (hn : c.rest.length ≤ n)
    (hform : Form (.statements ss) ts) (hpass : c.Passes (ts ++ [.symbol .rightBrace]) c') {m : Nat}
    (hm : c.rest.length ≤ m) : (statements p m).Ends c (.ok ss) c' := by
  induction ss generalizing c ts m with
  | nil =>
    cases hform
    obtain ⟨hc, -, rfl⟩ := hpass
    have hrest := congrArg List.length (rest_of_peek hc (by simp))
    rw [List.length_cons] at hrest
    obtain ⟨m, rfl⟩ : ∃ k, m = k + 1 := ⟨m - 1, by omega⟩
    simp only [statements, ends_peek_bind, hc, ends_next_bind, ends_leave_bind,
      ← pass_of_rightBrace hc]
    exact ⟨rfl, rfl⟩
  | cons s ss ih =>
    obtain ⟨us, c₁, hs, hss, hpass'⟩ :=
      exists_holdsStatement hform hpass rfl (by simp) (by simp)
    have hbegins := hs.beginsStatement
    have hlt := hs.length_lt
    obtain ⟨m, rfl⟩ : ∃ k, m = k + 1 := ⟨m - 1, by omega⟩
    have hrest : (statements p m).Ends c₁ (.ok ss) c' := ih (by omega) hss hpass' (by omega)
    rw [statements, ends_peek_bind]
    split
    · next hc => exact absurd hbegins (by rw [hc]; decide)
    · next hc => exact absurd hbegins (by rw [hc]; decide)
    · rw [ends_bind_of_ok (statement_complete hp hn hs)]
      exact Ends.map (fun ss => s :: ss) hrest

theorem block_complete (hp : p.Complete n) (hn : c.rest.length ≤ n + 1)
    (h : c.HoldsBlock ss c') : (block p).Ends c (.ok ss) c' := by
  obtain ⟨ts, hform, hc, -, hpass⟩ := h
  have hlength := congrArg List.length (rest_of_peek hc (by simp))
  rw [List.length_cons] at hlength
  rw [block, ends_expect_of_eq hc, ends_enter_bind, ends_unread_bind, ← pass_of_leftBrace hc]
  refine statements_complete hp ?_ hform hpass (Nat.le_refl _)
  change c.rest.tail.length ≤ n
  omega

/-! ### Lists of arguments and parameters -/

lemma moreItems_complete {α : Type} {item : Parser α} {W : α → List Token → Prop}
    (hitem : ∀ {c a ts c'}, c.rest.length ≤ n → W a ts → c.Passes ts c' →
      (c'.peek = .symbol .comma ∨ c'.peek = .symbol .rightParen) → item.Ends c (.ok a) c')
    {as : List α} (has : Further W as ts) (hpass : c.Passes ts c')
    (hc' : c'.peek = .symbol .rightParen) (hn : c.rest.length ≤ n) {m : Nat}
    (hm : c.rest.length ≤ m) : (moreItems item m).Ends c (.ok as) c' := by
  induction has generalizing c m with
  | nil =>
    cases hpass
    cases m with
    | zero => exact ⟨rfl, rfl⟩
    | succ m => simp [moreItems, hc']
  | @cons a as ts us hts hus ih =>
    have hlength := hpass.length_eq
    obtain ⟨hc, hpass⟩ := (passes_plain rfl).1 hpass
    obtain ⟨c₁, hpass, hpass'⟩ := passes_append.1 hpass
    have hlength' := hpass'.length_eq
    simp only [List.length_cons, List.length_append] at hlength
    obtain ⟨m, rfl⟩ : ∃ k, m = k + 1 := ⟨m - 1, by omega⟩
    have hfollow : c₁.peek = .symbol .comma ∨ c₁.peek = .symbol .rightParen := by
      cases hus with
      | nil => exact Or.inr (hpass'.headD_eq.trans hc')
      | cons => exact Or.inl hpass'.peek_eq
    have hmore : (moreItems item m).Ends c₁ (.ok as) c' := ih hpass' (by omega) (by omega)
    rw [moreItems, ends_peek_bind, if_pos hc, ends_next_bind,
      ends_bind_of_ok (hitem (by simp; omega) hts hpass hfollow)]
    exact Ends.map (fun as => a :: as) hmore

lemma items_complete_nil {α : Type} {item : Parser α} (hpass : c.Passes [.symbol .rightParen] c') :
    (items item).Ends c (.ok []) c' := by
  obtain ⟨hc, rfl⟩ := (passes_plain rfl).1 hpass
  simp [items, hc]

lemma items_complete_cons {α : Type} {item : Parser α} {W : α → List Token → Prop}
    (hitem : ∀ {c a ts c'}, c.rest.length ≤ n → W a ts → c.Passes ts c' →
      (c'.peek = .symbol .comma ∨ c'.peek = .symbol .rightParen) → item.Ends c (.ok a) c')
    {a : α} {as : List α} (ha : W a ts) (has : Further W as us)
    (hpass : c.Passes (ts ++ us ++ [.symbol .rightParen]) c') (hc : c.peek ≠ .symbol .rightParen)
    (hn : c.rest.length ≤ n) : (items item).Ends c (.ok (a :: as)) c' := by
  obtain ⟨c₂, hpass, hclose⟩ := passes_append.1 hpass
  obtain ⟨c₁, hts, hus⟩ := passes_append.1 hpass
  obtain ⟨hc₂, rfl⟩ := (passes_plain rfl).1 hclose
  have hlength := hts.length_eq
  have hfollow : c₁.peek = .symbol .comma ∨ c₁.peek = .symbol .rightParen := by
    cases has with
    | nil => exact Or.inr (hus.headD_eq.trans hc₂)
    | cons => exact Or.inl hus.peek_eq
  rw [items, ends_peek_bind, if_neg hc, ends_bind_of_ok (hitem hn ha hts hfollow), ends_unread_bind,
    ends_bind_of_ok (moreItems_complete hitem has hus hc₂ (by omega) (Nat.le_refl _)),
    ends_expect_of_eq hc₂]
  exact ⟨rfl, rfl⟩

lemma arguments_complete (hp : p.Complete n) {es : List Expression}
    (h : Form (.arguments es) us) (hpass : c.Passes (us ++ [.symbol .rightParen]) c')
    (hn : c.rest.length ≤ n) : (items (p.expression .lowest)).Ends c (.ok es) c' := by
  have hitem : ∀ {c e ts c'}, c.rest.length ≤ n → (∃ l o, Form (.expression e l o) ts) →
      c.Passes ts c' → (c'.peek = .symbol .comma ∨ c'.peek = .symbol .rightParen) →
      (p.expression .lowest).Ends c (.ok e) c' := by
    rintro c e ts c' hn ⟨l, o, hform⟩ hpass hfollow
    refine hp.expression (by decide) hn ⟨l, o, ts, hform, hform.admits_lowest, hpass, ?_⟩
    rcases hfollow with hc' | hc' <;>
      exact Token.not_extends_of_none (by rw [hc']; rfl) (by simp [hc'])
  cases h with
  | noArguments => exact items_complete_nil hpass
  | someArguments h h' =>
    refine items_complete_cons hitem ⟨_, _, h⟩ (furtherArguments_iff.2 h') hpass ?_ hn
    obtain ⟨t, us, rfl, ht⟩ := h.exists_first
    rw [hpass.peek_eq]
    rintro rfl
    cases ht

lemma further_parameters (name : String) (names : List String) :
    ∃ us, Further (fun name ts => ts = [Token.ident name]) names us ∧
      Form.parameters (name :: names) = .ident name :: us := by
  suffices h : ∃ us, Further (fun name ts => ts = [Token.ident name]) names us by
    obtain ⟨us, hus⟩ := h
    exact ⟨us, hus, parameters_cons hus⟩
  induction names with
  | nil => exact ⟨[], .nil⟩
  | cons name names ih =>
    obtain ⟨us, hus⟩ := ih
    exact ⟨_, .cons rfl hus⟩

lemma parameters_complete {names : List String}
    (hpass : c.Passes (Form.parameters names ++ [.symbol .rightParen]) c') :
    (items parameter : Parser (List String)).Ends c (.ok names) c' := by
  have hitem : ∀ {c name ts c'}, ts = [Token.ident name] → c.Passes ts c' →
      (parameter : Parser String).Ends c (.ok name) c' := by
    rintro c name ts c' rfl hpass
    obtain ⟨hc, rfl⟩ := (passes_plain rfl).1 hpass
    simp [parameter, hc]
  cases names with
  | nil => exact items_complete_nil hpass
  | cons name names =>
    obtain ⟨us, hus, heq⟩ := further_parameters name names
    rw [heq] at hpass
    refine items_complete_cons (fun _ h hpass _ => hitem h hpass) rfl hus hpass ?_ (Nat.le_refl _)
    rw [hpass.peek_eq]
    simp

/-! ### Operands -/

lemma unary_complete (hp : p.Complete n) (op : UnaryOp) (hl : .unary ≤ l)
    (h : Form (.expression e l o) ts) (hpass : c.Passes (.symbol op.sign :: ts) c')
    (hstop : ¬ c'.peek.Extends .unary o) (hn : c.rest.length ≤ n + 1) :
    (operand p).Ends c (.ok (.unary op e)) c' := by
  obtain ⟨hc, he⟩ := (passes_plain (by simp)).1 hpass
  have hlength := length_eq_next (by simp [hc] : c.peek ≠ .endOfInput)
  have hend : (unary p op).Ends c (.ok (.unary op e)) c' := by
    rw [unary, ends_next_bind]
    exact Ends.map (Expression.unary op) (hp.expression (by decide) (by omega)
      ⟨l, o, ts, h, Or.inr hl, he, hstop⟩)
  rw [operand, ends_peek_bind, hc]
  cases op with
  | not => exact hend
  | negate => exact hend

/-- An expression in parentheses, behind the parenthesis that opens it. -/
lemma closed_complete (hp : p.Complete n) (h : Form (.expression e l o) ts)
    (hpass : c.Passes ts c₁) (hc₁ : c₁.peek = .symbol .rightParen) (hn : c.rest.length ≤ n) :
    (p.expression .lowest).Ends c (.ok e) c₁ :=
  hp.expression (by decide) hn ⟨l, o, ts, h, h.admits_lowest, hpass,
    Token.not_extends_of_none (by rw [hc₁]; rfl) (by simp [hc₁])⟩

lemma grouped_complete (hp : p.Complete n) (h : Form (.expression e l o) ts)
    (hpass : c.Passes (Form.inParens ts) c') (hn : c.rest.length ≤ n + 1) :
    (operand p).Ends c (.ok e) c' := by
  obtain ⟨hc, hparens⟩ := (passes_plain rfl).1 hpass
  obtain ⟨c₁, hts, hclose⟩ := passes_append.1 hparens
  obtain ⟨hc₁, rfl⟩ := (passes_plain rfl).1 hclose
  have hlength := length_eq_next (by simp [hc] : c.peek ≠ .endOfInput)
  rw [operand, ends_peek_bind, hc]
  show (grouped p).Ends c (.ok e) c₁.next
  rw [grouped, ends_next_bind, ends_bind_of_ok (closed_complete hp h hts hc₁ (by omega)),
    ends_expect_of_eq hc₁]
  exact ⟨rfl, rfl⟩

/-- A conditional up to its first block. -/
lemma consequence_complete (hp : p.Complete n) {r : Except ParseError Expression}
    {t : List Statement} (h : Form (.expression e l o) ts) (ht : Form (.statements t) us)
    (hpass : c.Passes (.keyword .ifWord :: (Form.inParens ts ++ Form.inBraces us)) c₁)
    (hn : c.rest.length ≤ n + 1) :
    (operand p).Ends c r c' ↔
      (if c₁.peek = .keyword .elseWord then do
          Parser.next
          let f ← block p
          return .ifElse e t f
        else
          return .ifThen e t : Parser Expression).Ends c₁ r c' := by
  obtain ⟨hc, hif⟩ := (passes_plain rfl).1 hpass
  obtain ⟨c₃, hparens, hbraces⟩ := passes_append.1 hif
  obtain ⟨hopen, hclosed⟩ := (passes_plain rfl).1 hparens
  obtain ⟨c₂, hts, hclose⟩ := passes_append.1 hclosed
  obtain ⟨hc₂, rfl⟩ := (passes_plain rfl).1 hclose
  have hlength := length_eq_next (by simp [hc] : c.peek ≠ .endOfInput)
  have hlength₁ := length_eq_next (by simp [hopen] : c.next.peek ≠ .endOfInput)
  have hlength₂ := length_eq_next (by simp [hc₂] : c₂.peek ≠ .endOfInput)
  have hlength₃ := hts.length_eq
  rw [operand, ends_peek_bind, hc]
  show (conditional p).Ends c r c' ↔ _
  rw [conditional, ends_next_bind, ends_expect_of_eq hopen,
    ends_bind_of_ok (closed_complete hp h hts hc₂ (by omega)), ends_expect_of_eq hc₂,
    ends_bind_of_ok (block_complete hp (by omega) ⟨us, ht, hbraces⟩), ends_peek_bind]

lemma ifThen_complete (hp : p.Complete n) {t : List Statement}
    (h : Form (.expression e l o) ts) (ht : Form (.statements t) us)
    (hpass : c.Passes (.keyword .ifWord :: (Form.inParens ts ++ Form.inBraces us)) c')
    (helse : c'.peek ≠ .keyword .elseWord) (hn : c.rest.length ≤ n + 1) :
    (operand p).Ends c (.ok (.ifThen e t)) c' := by
  rw [consequence_complete hp h ht hpass hn, if_neg helse]
  exact ⟨rfl, rfl⟩

lemma ifElse_complete (hp : p.Complete n) {t f : List Statement} {vs : List Token}
    (h : Form (.expression e l o) ts) (ht : Form (.statements t) us)
    (hf : Form (.statements f) vs)
    (hpass : c.Passes (.keyword .ifWord :: (Form.inParens ts ++ Form.inBraces us ++
      .keyword .elseWord :: Form.inBraces vs)) c')
    (hn : c.rest.length ≤ n + 1) : (operand p).Ends c (.ok (.ifElse e t f)) c' := by
  rw [← List.cons_append] at hpass
  obtain ⟨c₁, hpass, hrest⟩ := passes_append.1 hpass
  obtain ⟨helse, hbraces⟩ := (passes_plain rfl).1 hrest
  have hlength := hpass.length_eq
  have hlength₁ := length_eq_next (by simp [helse] : c₁.peek ≠ .endOfInput)
  rw [consequence_complete hp h ht hpass hn, if_pos helse, ends_next_bind]
  exact Ends.map (Expression.ifElse e t) (block_complete hp (by omega) ⟨vs, hf, hbraces⟩)

lemma function_complete (hp : p.Complete n) (names : List String) (h : Form (.statements ss) ts)
    (hpass : c.Passes
      (.keyword .fnWord :: (Form.inParens (Form.parameters names) ++ Form.inBraces ts)) c')
    (hn : c.rest.length ≤ n + 1) : (operand p).Ends c (.ok (.function names ss)) c' := by
  obtain ⟨hc, hfn⟩ := (passes_plain rfl).1 hpass
  obtain ⟨c₁, hparens, hbraces⟩ := passes_append.1 hfn
  have hlength := length_eq_next (by simp [hc] : c.peek ≠ .endOfInput)
  have hlength₁ := hparens.length_eq
  obtain ⟨hopen, hnames⟩ := (passes_plain rfl).1 hparens
  rw [operand, ends_peek_bind, hc]
  show (function p).Ends c (.ok (.function names ss)) c'
  rw [function, ends_next_bind, ends_expect_of_eq hopen,
    ends_bind_of_ok (parameters_complete hnames)]
  exact Ends.map (Expression.function names) (block_complete hp (by omega) ⟨ts, h, hbraces⟩)

/-! ### Operators and calls -/

/-- Behind an operand, reading goes on with it. -/
lemma expression_of_operand {r : Except ParseError Expression}
    (h : (operand p).Ends c (.ok e) c₁)
    (hnext : ∀ m, c₁.rest.length ≤ m → (continued p lv m e).Ends c₁ r c') :
    (expression p lv).Ends c r c' := by
  rw [expression, ends_called, ends_bind_of_ok h, ends_unread_bind]
  exact hnext _ (Nat.le_refl _)

/-- A continuation that is read makes the operand of the next one. -/
lemma continued_of_continuation {k : Continuation} {left : Expression}
    {r : Except ParseError Expression} {m : Nat} (hk : Continuation.ofToken? c.peek = some k)
    (hlv : lv < k.level) (h : (continuation p left k).Ends c (.ok e) c₁) :
    (continued p lv (m + 1) left).Ends c r c' ↔ (continued p lv m e).Ends c₁ r c' := by
  rw [continued, ends_peek_bind, hk]
  show (if lv < k.level then _ else _ : Parser Expression).Ends c r c' ↔ _
  rw [if_pos hlv, ends_bind_of_ok h]

theorem expression_of_form (hp : p.Complete n) {r : Except ParseError Expression}
    (h : Form (.expression e l o) ts) (hpass : c.Passes ts c₁) (hlv : lv < .call)
    (hl : lv.Admits l) (hstop : ¬ c₁.peek.Extends l o) (hn : c.rest.length ≤ n + 1)
    (hnext : ∀ m, c₁.rest.length ≤ m → (continued p lv m e).Ends c₁ r c') :
    (expression p lv).Ends c r c' := by
  generalize hph : Phrase.expression e l o = ph at h
  -- `hnext` is generalized too: behind a left operand, reading goes on with the operator
  induction h generalizing e l o c c₁ with
  | identifier name =>
    cases hph
    obtain ⟨hc, rfl⟩ := (passes_plain rfl).1 hpass
    exact expression_of_operand (by simp [operand, hc]) hnext
  | integer hdigits =>
    cases hph
    obtain ⟨hc, rfl⟩ := (passes_plain rfl).1 hpass
    refine expression_of_operand ?_ hnext
    simp [operand, hc, integer, Integer.ofInt?_eq_some_iff.2 hdigits]
  | boolean b =>
    cases hph
    obtain ⟨hc, rfl⟩ := (passes_plain (by cases b <;> rfl)).1 hpass
    refine expression_of_operand ?_ hnext
    cases b <;> simp [operand, hc, Form.truth]
  | unary op hl' h ih =>
    cases hph
    exact expression_of_operand (unary_complete hp op hl' h hpass hstop hn) hnext
  | @binary op left right l r o o' ts us hl' hr h h' ih ih' =>
    cases hph
    obtain ⟨c₂, hts, hop⟩ := passes_append.1 hpass
    obtain ⟨hc₂, hus⟩ := (passes_plain (by simp)).1 hop
    have hlength := hts.length_eq
    have hlength₂ := length_eq_next (fun he => by simp [he] at hc₂ : c₂.peek ≠ .endOfInput)
    have hk : Continuation.ofToken? c₂.peek = some (.operator op) := by simp [hc₂]
    -- the left operand is read first, and the loop goes on with it at the operator
    refine ih hts (hl.mono hl') (Token.not_extends_of_level_le hk hl') hn (fun m hm => ?_) rfl
    obtain ⟨m, rfl⟩ : ∃ k, m = k + 1 := ⟨m - 1, by omega⟩
    have hright : (p.expression op.level).Ends c₂.next (.ok right) c₁ := by
      refine hp.expression ?_ ?_ ⟨r, o', us, h', BinaryOp.admits_of_level.2 hr, hus, hstop⟩
      · exact Level.lt_def.2 (Nat.lt_trans (Level.lt_def.1 op.level_lt_unary) (by decide))
      · obtain ⟨t, ts, rfl, -⟩ := h.exists_first
        rw [List.length_cons] at hlength
        omega
    have hbinary :
        (continuation p left (.operator op)).Ends c₂ (.ok (.binary op left right)) c₁ := by
      rw [continuation, ends_called, binary, ends_next_bind]
      exact Ends.map (Expression.binary op left) hright
    have hlength₁ := hus.length_eq
    exact (continued_of_continuation hk (BinaryOp.admits_level.1 hl) hbinary).2 (hnext m (by omega))
  | @call f es o ts us h h' ih ih' =>
    cases hph
    obtain ⟨c₂, hts, hparens⟩ := passes_append.1 hpass
    have hlength := hts.length_eq
    have hlength₁ := hparens.length_eq
    rw [Form.inParens, List.length_cons] at hlength₁
    obtain ⟨hc₂, hus⟩ := (passes_plain rfl).1 hparens
    have hlength₂ := length_eq_next (by simp [hc₂] : c₂.peek ≠ .endOfInput)
    have hk : Continuation.ofToken? c₂.peek = some .arguments := by rw [hc₂]; rfl
    refine ih hts hl (Token.not_extends_of_level_le hk (Level.le_call _)) hn (fun m hm => ?_) rfl
    obtain ⟨m, rfl⟩ : ∃ k, m = k + 1 := ⟨m - 1, by omega⟩
    have hcall : (continuation p f .arguments).Ends c₂ (.ok (.call f es)) c₁ := by
      obtain ⟨t, ts, rfl, -⟩ := h.exists_first
      rw [List.length_cons] at hlength
      rw [continuation, call, ends_next_bind]
      exact Ends.map (Expression.call f) (arguments_complete hp h' hus (by omega))
    exact (continued_of_continuation hk hlv hcall).2 (hnext m (by omega))
  | ifThen h ht =>
    cases hph
    refine expression_of_operand (ifThen_complete hp h ht hpass ?_ hn) hnext
    exact fun helse => hstop (Or.inr ⟨rfl, helse⟩)
  | ifElse h ht hf =>
    cases hph
    exact expression_of_operand (ifElse_complete hp h ht hf hpass hn) hnext
  | @block ss ts h =>
    cases hph
    refine expression_of_operand ?_ hnext
    have hc : c.peek = .symbol .leftBrace := hpass.peek_eq
    have hend : (block p).Ends c (.ok ss) c₁ := block_complete hp hn ⟨ts, h, hpass⟩
    rw [operand, ends_peek_bind, hc]
    exact Ends.map Expression.block hend
  | function names h =>
    cases hph
    exact expression_of_operand (function_complete hp names h hpass hn) hnext
  | grouped h =>
    cases hph
    exact expression_of_operand (grouped_complete hp h hpass hn) hnext
  | _ => cases hph

/-- What is not taken into an expression above a level is not taken into a form that may be read
above that level. -/
lemma not_extends_of_admits {t : Token} (hlv : lv < .call) (hl : lv.Admits l)
    (h : ¬ t.Extends lv o) : ¬ t.Extends l o := by
  rw [Token.not_extends_iff] at h ⊢
  refine ⟨?_, h.2⟩
  rintro ⟨k, hk, hlt⟩
  refine h.1 ⟨k, hk, ?_⟩
  -- at levels above the operators only a call is left to be taken in
  cases k with
  | arguments => exact hlv
  | operator op =>
    have := op.level_lt_unary
    simp only [Continuation.level, Level.Admits, Level.lt_def, Level.le_def] at *
    omega

theorem expression_complete (hp : p.Complete n) (hlv : lv < .call) (hn : c.rest.length ≤ n + 1)
    (h : c.HoldsExpression lv e c') : (expression p lv).Ends c (.ok e) c' := by
  obtain ⟨l, o, ts, hform, hl, hpass, hstop⟩ := h
  refine expression_of_form hp hform hpass hlv hl (not_extends_of_admits hlv hl hstop) hn ?_
  intro m hm
  rw [Token.not_extends_iff] at hstop
  cases m with
  | zero => exact ⟨rfl, rfl⟩
  | succ m =>
    rw [continued, ends_peek_bind]
    split
    · next k hk => rw [if_neg fun hlt => hstop.1 ⟨k, hk, hlt⟩]; exact ⟨rfl, rfl⟩
    · exact ⟨rfl, rfl⟩

end Grammar

/-- The parsers for the parts of a text give whatever stands in it. -/
theorem Parts.complete_ofDepth (n : Nat) : (Parts.ofDepth n).Complete n := by
  induction n with
  | zero =>
    constructor
    · rintro lv c e c' - hn ⟨l, o, ts, hform, -, hpass, -⟩
      obtain ⟨t, us, rfl, -⟩ := hform.exists_first
      simp [hpass.length_eq] at hn
    · rintro c ss c' hn ⟨ts, -, hpass⟩
      simp [hpass.length_eq, Form.inBraces] at hn
  | succ n ih =>
    exact ⟨fun hlv hn h => Grammar.expression_complete ih hlv hn h,
      fun hn h => Grammar.block_complete ih hn h⟩

end TreeWalk
