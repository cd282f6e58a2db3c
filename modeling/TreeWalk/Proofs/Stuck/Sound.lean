/-
# Parsers fail where a phrase is stuck

Whenever a parser of the grammar fails, the tokens it has read begin the phrase that it was to read,
and the next token cannot stand behind them, in the sense of `TreeWalk.Proofs.Stuck`.

The parts that were read before are forms by `TreeWalk.Proofs.Form.Sound`.  So there is one case
for each step at which a parser can fail, and one for each part in which it can.
-/
import TreeWalk.Proofs.Stuck

namespace TreeWalk

/-- The parsers for parts fail only where a phrase is stuck, in a text of at most `n` tokens. -/
structure Parts.StuckSound (p : Parts) (n : Nat) : Prop where
  expression : ∀ {lv c e c'}, c.rest.length ≤ n → (p.expression lv).Ends c (.error e) c' →
    c.StuckIn (Stuck (.expression lv)) e
  block : ∀ {c e c'}, c.rest.length ≤ n → p.block.Ends c (.error e) c' →
    c.StuckIn (Stuck .block) e

namespace Grammar

open TreeWalk.Parser TreeWalk.Cursor Form

variable {p : Parts} {n : Nat} {c c₀ c' : Cursor} {e : ParseError} {s : Statement}
  {ts : List Token}

/-! ### Statements -/

lemma binding_stuck (hp : p.StuckSound n) (hn : c.rest.length ≤ n)
    (hc : c.peek = .keyword .letWord) (h : (binding p).Ends c (.error e) c') :
    c.StuckIn (Stuck .statement) e := by
  have hlet : c.Passes [.keyword .letWord] c.next := .single hc rfl
  rw [binding, ends_next_bind, ends_peek_bind] at h
  split at h
  · next name hname =>
    have hident := hlet.trans (.single hname rfl)
    rw [ends_next_bind, ends_expect_bind_error] at h
    rcases h with ⟨hassign, h⟩ | ⟨hassign, rfl, rfl⟩
    · have hequals := hident.trans (.single hassign rfl)
      have hlength := hequals.length_eq
      refine (hp.expression (by omega) (ended_refused h)).behind hequals ?_
      intro us hus _
      exact .binding name hus
    · exact ⟨_, _, .bindingSign name hassign, hident, rfl⟩
  · next t hname =>
    obtain ⟨he, rfl⟩ := ends_fail.1 h
    obtain rfl := Except.error.inj he
    exact ⟨_, _, .bindingName hname, hlet, rfl⟩

lemma returning_stuck (hp : p.StuckSound n) (hn : c.rest.length ≤ n)
    (hc : c.peek = .keyword .returnWord) (h : (returning p).Ends c (.error e) c') :
    c.StuckIn (Stuck .statement) e := by
  have hreturn : c.Passes [.keyword .returnWord] c.next := .single hc rfl
  have hlength := hreturn.length_eq
  rw [returning, ends_next_bind] at h
  refine (hp.expression (by omega) (ended_refused h)).behind hreturn ?_
  intro us hus _
  exact .returning hus

/-- A block is stuck behind its brace, when there is one. -/
lemma stuck_statements_of_block {us : List Token} (h : Stuck .block us e)
    (hus : us.headD e.found = .symbol .leftBrace) :
    ∃ vs, us = .symbol .leftBrace :: vs ∧ Stuck .statements vs e := by
  cases h with
  | notOpened ht => exact absurd hus ht
  | opened h => exact ⟨_, rfl, h⟩

lemma blockStatement_stuck (hp : p.StuckSound n) (hn : c.rest.length ≤ n)
    (hc : c.peek = .symbol .leftBrace) (h : (blockStatement p).Ends c (.error e) c') :
    c.StuckIn (Stuck .statement) e := by
  rcases ends_bind_error.1 h with h | ⟨body, c₁, -, h⟩
  · refine (hp.block hn h).mono ?_
    intro us hus hhead
    obtain ⟨vs, rfl, hvs⟩ := stuck_statements_of_block hus (hhead.trans hc)
    exact .blockStatement hvs
  · rw [ends_skip_bind, ends_pure] at h
    cases h.1

theorem statement_stuck (hp : p.StuckSound n) (hn : c.rest.length ≤ n)
    (h : (statement p).Ends c (.error e) c') : c.StuckIn (Stuck .statement) e := by
  rw [statement, ends_called, ends_peek_bind] at h
  split at h
  · next hc => exact binding_stuck hp hn hc h
  · next hc => exact returning_stuck hp hn hc h
  · next hc => exact blockStatement_stuck hp hn hc h
  · next hlet hreturn hbrace =>
    refine (hp.expression hn (ended_refused h)).mono ?_
    intro us hus hhead
    exact .expressionStatement hus (hhead ▸ hlet) (hhead ▸ hreturn) (hhead ▸ hbrace)

/-! ### Blocks -/

/-- What is stuck behind a statement is stuck with it in front. -/
lemma stuckIn_of_holdsStatement (h : c.HoldsStatement s c')
    (h' : c'.StuckIn (Stuck .statements) e) : c.StuckIn (Stuck .statements) e := by
  obtain ⟨o, ts, c₁, hform, hpass, hstop, rfl⟩ := h
  by_cases hsemi : c₁.peek = .symbol .semicolon
  · rw [skipping, if_pos hsemi] at h'
    refine h'.behind (hpass.trans (.single hsemi rfl)) ?_
    intro us hus _
    rw [← List.append_cons]
    exact .ended hform hus
  · rw [skipping, if_neg hsemi] at h'
    refine h'.behind hpass ?_
    intro us hus hhead
    exact .unended hform hus (hhead ▸ hsemi) (hhead ▸ hstop)

lemma unclosed_stuck {α : Type} (hc : c.peek = .endOfInput)
    (h : (unclosed : Parser α).Ends c (.error e) c') : c.StuckIn (Stuck .statements) e := by
  rw [unclosed, ends_next_bind, ends_fail] at h
  obtain ⟨he, rfl⟩ := h
  obtain rfl := Except.error.inj he
  exact stuckIn_here .unclosed hc

lemma statements_stuck (hs : p.Sound) (hp : p.StuckSound n) (hn : c.rest.length ≤ n) {m : Nat}
    (hm : c.rest.length ≤ m) (h : (statements p m).Ends c (.error e) c') :
    c.StuckIn (Stuck .statements) e := by
  induction m generalizing c with
  | zero => exact unclosed_stuck (peek_of_length_eq_zero (Nat.le_zero.1 hm)) h
  | succ m ih =>
    rw [statements, ends_peek_bind] at h
    split at h
    · rw [ends_next_bind, ends_leave_bind, ends_pure] at h
      cases h.1
    · next hc => exact unclosed_stuck hc h
    · next hbrace hend =>
      rcases ends_bind_error.1 h with h | ⟨s, c₁, hstatement, h⟩
      · refine (statement_stuck hp hn h).mono ?_
        intro us hus hhead
        exact .next hus (hhead ▸ hend) (hhead ▸ hbrace)
      · have hholds := statement_sound hs hstatement
        have hlt := hholds.length_lt
        exact stuckIn_of_holdsStatement hholds (ih (by omega) (by omega) (ends_map_error.1 h))

theorem block_stuck (hs : p.Sound) (hp : p.StuckSound n) (hn : c.rest.length ≤ n + 1)
    (h : (block p).Ends c (.error e) c') : c.StuckIn (Stuck .block) e := by
  rw [block, ends_expect_bind_error] at h
  rcases h with ⟨hc, h⟩ | ⟨hc, rfl, rfl⟩
  · rw [ends_enter_bind, ends_unread_bind, ← pass_of_leftBrace hc] at h
    have hpass : c.Passes [.symbol .leftBrace] c.pass := .opened hc (.refl _)
    have hlength := hpass.length_eq_succ
    refine (statements_stuck hs hp (by omega) (Nat.le_refl _) h).behind hpass ?_
    intro us hus _
    exact .opened hus
  · exact stuckIn_here (.notOpened hc) rfl

/-! ### Lists of arguments and parameters -/

section Lists

variable {α : Type} {item : Parser α} {W : α → List Token → Token → Prop}
  {S : List Token → ParseError → Prop} {m : Nat} {a : α} {as : List α}

/-- A list is stuck in a further item. -/
lemma moreItems_stuck
    (hitem : ∀ {c a c'}, item.Ends c (.ok a) c' → ∃ ts, W a ts c'.peek ∧ c.Passes ts c')
    (hstuck : ∀ {c e c'}, c.rest.length ≤ n → item.Ends c (.error e) c' → c.StuckIn S e)
    (ha : W a ts c.peek) (hpass : c₀.Passes ts c) (hn : c.rest.length ≤ n)
    (h : (moreItems item m).Ends c (.error e) c') : c₀.StuckIn (ListStuck W S) e := by
  induction m generalizing c₀ c a ts with
  | zero => cases (ends_pure.1 h).1
  | succ m ih =>
    rw [moreItems, ends_peek_bind] at h
    split at h
    · next hc =>
      have hcomma : c.Passes [.symbol .comma] c.next := .single hc rfl
      have hlength := hcomma.length_eq
      have hnext : c.next.StuckIn (ListStuck W S) e := by
        rw [ends_next_bind] at h
        rcases ends_bind_error.1 h with h | ⟨a', c₁, ha', h⟩
        · exact (hstuck (by omega) h).mono fun us hus _ => .item hus
        · obtain ⟨us, hus, hpass'⟩ := hitem ha'
          have hlength' := hpass'.length_eq
          exact ih hus hpass' (by omega) (ends_map_error.1 h)
      refine hnext.behind (hpass.trans hcomma) ?_
      intro us hus _
      rw [← List.append_cons]
      exact .further (hc ▸ ha) hus
    · cases (ends_pure.1 h).1

/-- A list is stuck behind its last item. -/
lemma moreItems_stuck_behind
    (hitem : ∀ {c a c'}, item.Ends c (.ok a) c' → ∃ ts, W a ts c'.peek ∧ c.Passes ts c')
    (ha : W a ts c.peek) (hpass : c₀.Passes ts c) (hm : c.rest.length ≤ m)
    (h : (moreItems item m).Ends c (.ok as) c') (hparen : c'.peek ≠ .symbol .rightParen) :
    c₀.StuckIn (ListStuck W S) (.expected (.symbol .rightParen) c'.peek) := by
  induction m generalizing c₀ c a as ts with
  | zero =>
    obtain ⟨-, rfl⟩ := ends_pure.1 h
    have hcomma : c.peek ≠ .symbol .comma := by
      rw [peek_of_length_eq_zero (Nat.le_zero.1 hm)]
      simp
    exact ⟨ts, c, .notClosed ha hcomma hparen, hpass, rfl⟩
  | succ m ih =>
    rw [moreItems, ends_peek_bind] at h
    split at h
    · next hc =>
      have hcomma : c.Passes [.symbol .comma] c.next := .single hc rfl
      have hlength := hcomma.length_eq_succ
      rw [ends_next_bind] at h
      obtain ⟨a', c₁, ha', h⟩ := ends_bind_ok.1 h
      obtain ⟨as', has', -⟩ := ends_map_ok.1 h
      obtain ⟨us, hus, hpass'⟩ := hitem ha'
      have hlength' := hpass'.length_eq
      refine (ih hus hpass' (by omega) has').behind (hpass.trans hcomma) ?_
      intro us hus _
      rw [← List.append_cons]
      exact .further (hc ▸ ha) hus
    · next hc =>
      obtain ⟨-, rfl⟩ := ends_pure.1 h
      exact ⟨ts, c, .notClosed ha hc hparen, hpass, rfl⟩

lemma items_stuck
    (hitem : ∀ {c a c'}, item.Ends c (.ok a) c' → ∃ ts, W a ts c'.peek ∧ c.Passes ts c')
    (hstuck : ∀ {c e c'}, c.rest.length ≤ n → item.Ends c (.error e) c' → c.StuckIn S e)
    (hn : c.rest.length ≤ n) (h : (items item).Ends c (.error e) c') :
    c.peek ≠ .symbol .rightParen ∧ c.StuckIn (ListStuck W S) e := by
  rw [items, ends_peek_bind] at h
  split at h
  · rw [ends_next_bind, ends_pure] at h
    cases h.1
  next hc =>
  refine ⟨hc, ?_⟩
  rcases ends_bind_error.1 h with h | ⟨a, c₁, ha, h⟩
  · exact (hstuck hn h).mono fun us hus _ => .item hus
  obtain ⟨us, hus, hpass⟩ := hitem ha
  have hlength := hpass.length_eq
  rw [ends_unread_bind] at h
  rcases ends_bind_error.1 h with h | ⟨as, c₂, has, h⟩
  · exact moreItems_stuck hitem hstuck hus hpass (by omega) h
  · rw [ends_expect_bind_error] at h
    rcases h with ⟨-, h⟩ | ⟨hc₂, rfl, rfl⟩
    · cases (ends_pure.1 h).1
    · exact moreItems_stuck_behind hitem hus hpass (Nat.le_refl _) has hc₂

end Lists

lemma arguments_stuck (hs : p.Sound) (hp : p.StuckSound n) (hn : c.rest.length ≤ n)
    (h : (items (p.expression .lowest)).Ends c (.error e) c') :
    c.peek ≠ .symbol .rightParen ∧ c.StuckIn (Stuck .arguments) e := by
  have hitem : ∀ {c x c'}, (p.expression .lowest).Ends c (.ok x) c' →
      ∃ ts, ArgumentSpelled x ts c'.peek ∧ c.Passes ts c' := by
    intro c x c' h
    obtain ⟨l, o, ts, hform, -, hpass, hstop⟩ := hs.expression h
    exact ⟨ts, ⟨l, o, hform, hstop⟩, hpass⟩
  obtain ⟨hc, hlist⟩ := items_stuck hitem hp.expression hn h
  exact ⟨hc, hlist.mono fun us hus _ => listStuck_arguments_iff.1 hus⟩

lemma parameters_stuck (h : (items parameter : Parser (List String)).Ends c (.error e) c') :
    c.peek ≠ .symbol .rightParen ∧ c.StuckIn (ListStuck ParameterSpelled ParameterStuck) e := by
  refine items_stuck ?_ ?_ (Nat.le_refl _) h
  · intro c name c' h
    exact ⟨_, rfl, parameter_sound h⟩
  · intro c e c' _ h
    rw [parameter, ends_peek_bind, ends_next_bind] at h
    split at h
    · cases (ends_pure.1 h).1
    · next hname =>
      obtain ⟨he, rfl⟩ := ends_fail.1 h
      obtain rfl := Except.error.inj he
      exact stuckIn_here ⟨rfl, _, hname, rfl⟩ rfl

/-! ### Operands -/

lemma integer_stuck {lv : Level} {digits : String} (hc : c.peek = .int digits)
    (h : (integer digits : Parser Expression).Ends c (.error e) c') :
    c.StuckIn (Stuck (.expression lv)) e := by
  rw [integer, ends_next_bind] at h
  split at h
  · cases (ends_pure.1 h).1
  · next hnone =>
    obtain ⟨he, rfl⟩ := ends_fail.1 h
    obtain rfl := Except.error.inj he
    exact stuckIn_here (.tooLarge hnone) hc

lemma unary_stuck (hp : p.StuckSound n) {lv : Level} (op : UnaryOp)
    (hc : c.peek = .symbol op.sign) (hn : c.rest.length ≤ n + 1)
    (h : (unary p op).Ends c (.error e) c') : c.StuckIn (Stuck (.expression lv)) e := by
  have hsign : c.Passes [.symbol op.sign] c.next := .single hc (by simp)
  have hlength := hsign.length_eq_succ
  rw [unary, ends_next_bind, ends_map_error] at h
  refine (hp.expression (by omega) h).behind hsign ?_
  intro us hus _
  exact .unary op hus

/-- An expression and the parenthesis behind it. -/
lemma closed_stuck {α : Type} (hs : p.Sound) (hp : p.StuckSound n) (hn : c.rest.length ≤ n)
    {f : Expression → Parser α}
    (h : (p.expression .lowest >>= fun x => expect (.symbol .rightParen) >>= fun _ => f x).Ends c
      (.error e) c') :
    c.StuckIn (Stuck .closed) e ∨ ∃ x l o ts c₁, Form (.expression x l o) ts ∧
      c.Passes (ts ++ [.symbol .rightParen]) c₁ ∧ (f x).Ends c₁ (.error e) c' := by
  rcases ends_bind_error.1 h with h | ⟨x, c₁, hx, h⟩
  · exact Or.inl ((hp.expression hn h).mono fun us hus _ => .inside hus)
  obtain ⟨l, o, ts, hform, -, hpass, hstop⟩ := hs.expression hx
  rw [ends_expect_bind_error] at h
  rcases h with ⟨hc₁, h⟩ | ⟨hc₁, rfl, rfl⟩
  · exact Or.inr ⟨x, l, o, ts, _, hform, hpass.trans (.single hc₁ rfl), h⟩
  · exact Or.inl ⟨ts, _, .notClosed hform hstop hc₁, hpass, rfl⟩

lemma grouped_stuck (hs : p.Sound) (hp : p.StuckSound n) {lv : Level}
    (hc : c.peek = .symbol .leftParen) (hn : c.rest.length ≤ n + 1)
    (h : (grouped p).Ends c (.error e) c') : c.StuckIn (Stuck (.expression lv)) e := by
  have hopen : c.Passes [.symbol .leftParen] c.next := .single hc rfl
  have hlength := hopen.length_eq_succ
  rw [grouped, ends_next_bind] at h
  rcases closed_stuck hs hp (by omega) h with h | ⟨x, l, o, ts, c₁, -, -, h⟩
  · refine h.behind hopen ?_
    intro us hus _
    exact .grouped hus
  · cases (ends_pure.1 h).1

lemma conditional_stuck (hs : p.Sound) (hp : p.StuckSound n) {lv : Level}
    (hc : c.peek = .keyword .ifWord) (hn : c.rest.length ≤ n + 1)
    (h : (conditional p).Ends c (.error e) c') : c.StuckIn (Stuck (.expression lv)) e := by
  have hif : c.Passes [.keyword .ifWord] c.next := .single hc rfl
  rw [conditional, ends_next_bind, ends_expect_bind_error] at h
  rcases h with ⟨hopen, h⟩ | ⟨hopen, rfl, rfl⟩
  · have hparen := hif.trans (.single hopen rfl)
    have hlength := hparen.length_eq
    rw [List.length_append, List.length_singleton] at hlength
    rcases closed_stuck hs hp (by omega) h with h | ⟨x, l, o, ts, c₁, hts, hclosed, h⟩
    · refine h.behind hparen ?_
      intro us hus _
      exact .condition hus
    have hcondition := hparen.trans hclosed
    have hlength₁ := hclosed.length_eq
    rcases ends_bind_error.1 h with h | ⟨consequence, c₂, hconsequence, h⟩
    · refine (block_stuck hs hp (by omega) h).behind hcondition ?_
      intro us hus _
      exact .consequence hts hus
    obtain ⟨us, hus, hbraces⟩ := block_sound hs hconsequence
    have hlength₂ := hbraces.length_eq
    rw [ends_peek_bind] at h
    split at h
    · next helse =>
      have hword : c₂.Passes [.keyword .elseWord] c₂.next := .single helse rfl
      have hlength₃ := hword.length_eq
      rw [ends_next_bind, ends_map_error] at h
      refine (block_stuck hs hp (by omega) h).behind ((hcondition.trans hbraces).trans hword) ?_
      intro vs hvs _
      simpa [inParens] using Stuck.alternative hts hus hvs
    · cases (ends_pure.1 h).1
  · exact ⟨_, _, .conditional hopen, hif, rfl⟩

lemma function_stuck (hs : p.Sound) (hp : p.StuckSound n) {lv : Level}
    (hc : c.peek = .keyword .fnWord) (hn : c.rest.length ≤ n + 1)
    (h : (function p).Ends c (.error e) c') : c.StuckIn (Stuck (.expression lv)) e := by
  have hfn : c.Passes [.keyword .fnWord] c.next := .single hc rfl
  rw [function, ends_next_bind, ends_expect_bind_error] at h
  rcases h with ⟨hopen, h⟩ | ⟨hopen, rfl, rfl⟩
  · have hparen := hfn.trans (.single hopen rfl)
    have hlength := hparen.length_eq
    rcases ends_bind_error.1 h with h | ⟨names, c₁, hnames, h⟩
    · obtain ⟨hne, hstuck⟩ := parameters_stuck h
      refine hstuck.behind hparen ?_
      intro us hus hhead
      exact .parameters hus (hhead ▸ hne)
    have hparameters := parameters_sound hnames
    have hlength₁ := hparameters.length_eq
    rw [ends_map_error] at h
    refine (block_stuck hs hp (by omega) h).behind (hparen.trans hparameters) ?_
    intro us hus _
    exact .body names hus
  · exact ⟨_, _, .function hopen, hfn, rfl⟩

lemma noOperand_stuck {lv : Level} (hc : ¬ c.peek.beginsExpression)
    (h : (noOperand : Parser Expression).Ends c (.error e) c') :
    c.StuckIn (Stuck (.expression lv)) e := by
  rw [noOperand, ends_peek_bind, ends_next_bind, ends_fail] at h
  obtain ⟨he, rfl⟩ := h
  obtain rfl := Except.error.inj he
  exact stuckIn_here (.noOperand hc) rfl

theorem operand_stuck (hs : p.Sound) (hp : p.StuckSound n) (lv : Level)
    (hn : c.rest.length ≤ n + 1) (h : (operand p).Ends c (.error e) c') :
    c.StuckIn (Stuck (.expression lv)) e := by
  rw [operand, ends_peek_bind] at h
  split at h
  · rw [ends_next_bind, ends_pure] at h
    cases h.1
  · next digits hc => exact integer_stuck hc h
  · rw [ends_next_bind, ends_pure] at h
    cases h.1
  · rw [ends_next_bind, ends_pure] at h
    cases h.1
  · next hc => exact conditional_stuck hs hp hc hn h
  · next hc => exact function_stuck hs hp hc hn h
  · next hc => exact unary_stuck hp .not hc hn h
  · next hc => exact unary_stuck hp .negate hc hn h
  · next hc => exact grouped_stuck hs hp hc hn h
  · next hc =>
    refine (block_stuck hs hp hn (ends_map_error.1 h)).mono ?_
    intro us hus hhead
    obtain ⟨vs, rfl, hvs⟩ := stuck_statements_of_block hus (hhead.trans hc)
    exact .braces hvs
  · refine noOperand_stuck ?_ h
    unfold Token.beginsExpression
    split <;> simp_all

/-! ### Operators and calls -/

/-- A continuation that fails is stuck behind the form in front of it. -/
lemma continuation_stuck (hs : p.Sound) (hp : p.StuckSound n) {lv : Level} {left : Expression}
    {k : Continuation} (hleft : Left c₀ lv left c) (hk : Continuation.ofToken? c.peek = some k)
    (hlv : lv < k.level) (hn : c.rest.length ≤ n + 1)
    (h : (continuation p left k).Ends c (.error e) c') :
    c₀.StuckIn (Stuck (.expression lv)) e := by
  obtain ⟨l, o, ts, hform, -, hpass, hstop⟩ := hleft
  have hl : k.level ≤ l := Token.level_le_of_not_extends hstop hk
  cases k with
  | operator op =>
    have hsign : c.Passes [.symbol op.sign] c.next :=
      .single (Continuation.eq_sign_of_ofToken? hk) (by simp)
    have hlength := hsign.length_eq_succ
    rw [continuation, ends_called, binary, ends_next_bind, ends_map_error] at h
    refine (hp.expression (by omega) h).behind (hpass.trans hsign) ?_
    intro us hus _
    rw [← List.append_cons]
    exact .operator op hlv hl hform hus
  | arguments =>
    obtain rfl := Level.eq_call_of_le hl
    have hopen : c.Passes [.symbol .leftParen] c.next :=
      .single (Continuation.eq_leftParen_of_ofToken? hk) rfl
    have hlength := hopen.length_eq_succ
    rw [continuation, call, ends_next_bind, ends_map_error] at h
    obtain ⟨hne, hstuck⟩ := arguments_stuck hs hp (by omega) h
    refine hstuck.behind (hpass.trans hopen) ?_
    intro us hus hhead
    rw [← List.append_cons]
    exact .call hform hus (hhead ▸ hne)

lemma continued_stuck (hs : p.Sound) (hp : p.StuckSound n) {lv : Level} {left : Expression}
    (hleft : Left c₀ lv left c) (hn : c.rest.length ≤ n + 1) {m : Nat}
    (h : (continued p lv m left).Ends c (.error e) c') :
    c₀.StuckIn (Stuck (.expression lv)) e := by
  induction m generalizing c left with
  | zero => cases (ends_pure.1 h).1
  | succ m ih =>
    rw [continued, ends_peek_bind] at h
    split at h
    · next k hk =>
      split at h
      · next hlv =>
        rcases ends_bind_error.1 h with h | ⟨x, c₁, hx, h⟩
        · exact continuation_stuck hs hp hleft hk hlv hn h
        · obtain ⟨hleft', hlt⟩ := continuation_sound hs hleft hk hlv hx
          exact ih hleft' (by omega) h
      · cases (ends_pure.1 h).1
    · cases (ends_pure.1 h).1

theorem expression_stuck (hs : p.Sound) (hp : p.StuckSound n) {lv : Level}
    (hn : c.rest.length ≤ n + 1) (h : (expression p lv).Ends c (.error e) c') :
    c.StuckIn (Stuck (.expression lv)) e := by
  rw [expression, ends_called] at h
  rcases ends_bind_error.1 h with h | ⟨left, c₁, hleft, h⟩
  · exact operand_stuck hs hp lv hn h
  · have hholds := operand_sound hs lv hleft
    have hlength : c₁.rest.length ≤ c.rest.length := by
      obtain ⟨l, o, ts, -, -, hpass, -⟩ := hholds
      exact hpass.length_le
    rw [ends_unread_bind] at h
    exact continued_stuck hs hp hholds (by omega) h

end Grammar

/-- The parsers for the parts of a text fail only where a phrase is stuck. -/
theorem Parts.stuckSound_ofDepth (n : Nat) : (Parts.ofDepth n).StuckSound n := by
  induction n with
  | zero =>
    have hpeek {c : Cursor} (hn : c.rest.length ≤ 0) : c.peek = .endOfInput :=
      Cursor.peek_of_length_eq_zero (Nat.le_zero.1 hn)
    constructor
    · intro lv c e c' hn h
      rw [Parts.ofDepth, Parser.ends_called] at h
      exact Grammar.noOperand_stuck (by rw [hpeek hn]; decide) h
    · intro c e c' hn h
      obtain ⟨he, rfl⟩ := Parser.ends_fail.1 h
      obtain rfl := Except.error.inj he
      exact Cursor.stuckIn_here (.notOpened (by simp)) (hpeek hn)
  | succ n ih =>
    have hs := Parts.sound_ofDepth n
    exact ⟨fun hn h => Grammar.expression_stuck hs ih hn h,
      fun hn h => Grammar.block_stuck hs ih hn h⟩

end TreeWalk
