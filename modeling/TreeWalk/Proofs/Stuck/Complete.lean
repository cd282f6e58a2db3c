/-
# Where a phrase is stuck, its parser fails

Where tokens stand that begin a phrase, with a token behind them that cannot stand there, the parser
that is to read the phrase fails, and for the very reason.  What stands behind that token makes no
difference.  With the converse in `TreeWalk.Proofs.Stuck.Sound`, the parsers of the grammar fail just
where a phrase is stuck.

The parts in front of the one that is stuck are read by `TreeWalk.Proofs.Form.Complete`.  An operator
or a call is reached by the loop that takes them in, and there `Grammar.expression_of_form` tells
how reading comes to the end of the left operand.
-/
import TreeWalk.Proofs.Form.Complete
import TreeWalk.Proofs.Stuck

namespace TreeWalk

namespace Parser

variable {α β : Type} {p : Parser α} {f : α → Parser β} {c c₁ : Cursor} {e : ParseError}

/-! ### Failing -/

/-- The parser fails at a place for the reason `e`. -/
def Fails (p : Parser α) (c : Cursor) (e : ParseError) : Prop :=
  ∃ c', p.Ends c (.error e) c'

lemma Fails.bind (h : p.Fails c e) (f : α → Parser β) : (p >>= f).Fails c e := by
  obtain ⟨c', h⟩ := h
  exact ⟨c', (ends_bind_of_error h).2 ⟨rfl, rfl⟩⟩

lemma fails_bind_of_ok {a : α} (h : p.Ends c (.ok a) c₁) :
    (p >>= f).Fails c e ↔ (f a).Fails c₁ e :=
  exists_congr fun _ => ends_bind_of_ok h

@[simp] lemma fails_called {x : Routine} : (called x p).Fails c e ↔ p.Fails c e := Iff.rfl

@[simp] lemma fails_peek_bind {f : Token → Parser β} :
    (peek >>= f).Fails c e ↔ (f c.peek).Fails c e := Iff.rfl

@[simp] lemma fails_next_bind {f : Unit → Parser β} :
    (next >>= f).Fails c e ↔ (f ()).Fails c.next e := Iff.rfl

@[simp] lemma fails_unread_bind {f : Nat → Parser β} :
    (unread >>= f).Fails c e ↔ (f c.rest.length).Fails c e := Iff.rfl

@[simp] lemma fails_enter_bind {f : Unit → Parser β} :
    (enter >>= f).Fails c e ↔ (f ()).Fails { c with depth := c.depth + 1 } e := Iff.rfl

lemma fails_fail (e : ParseError) (c : Cursor) : (fail e : Parser α).Fails c e :=
  ⟨c, rfl, rfl⟩

lemma fails_expect_of_eq {t : Token} {f : Unit → Parser β} (h : c.peek = t) :
    (expect t >>= f).Fails c e ↔ (f ()).Fails c.next e :=
  exists_congr fun _ => ends_expect_of_eq h

lemma fails_expect_of_ne {t : Token} {f : Unit → Parser β} (h : c.peek ≠ t) :
    (expect t >>= f).Fails c (.expected t c.peek) :=
  ⟨c, ends_expect_bind_error.2 (Or.inr ⟨h, rfl, rfl⟩)⟩

end Parser

/-- The parsers for parts fail wherever a phrase is stuck in a text of at most `n` tokens. -/
structure Parts.StuckComplete (p : Parts) (n : Nat) : Prop where
  expression : ∀ {lv c e}, lv < .call → c.rest.length ≤ n →
    c.StuckIn (Stuck (.expression lv)) e → (p.expression lv).Fails c e
  block : ∀ {c e}, c.rest.length ≤ n → c.StuckIn (Stuck .block) e → p.block.Fails c e

namespace Grammar

open TreeWalk.Parser TreeWalk.Cursor Form

variable {p : Parts} {n m : Nat} {c c₁ : Cursor} {e : ParseError} {ts : List Token} {lv : Level}

/-! ### Statements -/

theorem statement_fails (hp : p.StuckComplete n) (hn : c.rest.length ≤ n)
    (h : c.StuckIn (Stuck .statement) e) : (statement p).Fails c e := by
  obtain ⟨ts, c₁, hstuck, hpass, hfound⟩ := h
  rw [statement, fails_called, fails_peek_bind]
  cases hstuck with
  | @bindingName t ht =>
    obtain ⟨hlet, rfl⟩ := (passes_plain rfl).1 hpass
    have hfound : c.next.peek = t := hfound
    simp only [hlet, binding, fails_next_bind, fails_peek_bind, hfound]
    exact fails_fail _ _
  | @bindingSign name t ht =>
    obtain ⟨hlet, hpass⟩ := (passes_plain rfl).1 hpass
    obtain ⟨hname, rfl⟩ := (passes_plain rfl).1 hpass
    obtain rfl : c.next.next.peek = t := hfound
    simp only [hlet, binding, fails_next_bind, fails_peek_bind, hname]
    exact fails_expect_of_ne ht
  | binding name h =>
    obtain ⟨hlet, hpass⟩ := (passes_plain rfl).1 hpass
    obtain ⟨hname, hpass⟩ := (passes_plain rfl).1 hpass
    obtain ⟨hassign, hpass⟩ := (passes_plain rfl).1 hpass
    simp only [hlet, binding, fails_next_bind, fails_peek_bind, hname, fails_expect_of_eq hassign]
    exact (hp.expression (by decide) (by simp; omega) ⟨_, _, h, hpass, hfound⟩).bind _
  | returning h =>
    obtain ⟨hreturn, hpass⟩ := (passes_plain rfl).1 hpass
    simp only [hreturn, returning, fails_next_bind]
    exact (hp.expression (by decide) (by simp; omega) ⟨_, _, h, hpass, hfound⟩).bind _
  | blockStatement h =>
    have hc : c.peek = .symbol .leftBrace := hpass.peek_eq
    simp only [hc, blockStatement]
    exact (hp.block hn ⟨_, _, .opened h, hpass, hfound⟩).bind _
  | expressionStatement h hlet hreturn hbrace =>
    have hend : (expressionStatement p).Fails c e :=
      (hp.expression (by decide) hn ⟨_, _, h, hpass, hfound⟩).bind _
    rw [← hfound, ← hpass.headD_eq] at hlet hreturn hbrace
    split
    · contradiction
    · contradiction
    · contradiction
    · exact hend

/-! ### Blocks -/

/-- The statements of a block are stuck at their end, in the first one, or behind it. -/
lemma stuckIn_statements_cases (h : c.StuckIn (Stuck .statements) e) :
    (c.peek = .endOfInput ∧ e = .expected (.symbol .rightBrace) .endOfInput) ∨
    (c.peek ≠ .endOfInput ∧ c.peek ≠ .symbol .rightBrace ∧ c.StuckIn (Stuck .statement) e) ∨
    ∃ s c', c.HoldsStatement s c' ∧ c'.StuckIn (Stuck .statements) e := by
  obtain ⟨ts, c₁, hstuck, hpass, hfound⟩ := h
  cases hstuck with
  | unclosed =>
    obtain rfl := passes_nil.1 hpass
    exact Or.inl ⟨hfound, rfl⟩
  | next h hend hbrace =>
    rw [← hfound, ← hpass.headD_eq] at hend hbrace
    exact Or.inr (Or.inl ⟨hend, hbrace, _, _, h, hpass, hfound⟩)
  | @ended s o ts us _ h h' =>
    obtain ⟨c₂, hts, hsemi⟩ := passes_append.1 hpass
    obtain ⟨hc₂, hus⟩ := (passes_plain rfl).1 hsemi
    refine Or.inr (Or.inr ⟨s, c₂.next, ⟨o, ts, c₂, h, hts, Or.inr ?_, ?_⟩, us, c₁, h', hus, hfound⟩)
    · exact Token.not_extends_of_none (by rw [hc₂]; rfl) (by simp [hc₂])
    · rw [skipping, if_pos hc₂]
  | @unended s o ts us _ h h' hsemi hstop =>
    obtain ⟨c₂, hts, hus⟩ := passes_append.1 hpass
    rw [← hfound, ← hus.headD_eq] at hsemi hstop
    refine Or.inr (Or.inr ⟨s, c₂, ⟨o, ts, c₂, h, hts, hstop, ?_⟩, us, c₁, h', hus, hfound⟩)
    rw [skipping, if_neg hsemi]

lemma statements_fails (hc : p.Complete n) (hp : p.StuckComplete n) (hn : c.rest.length ≤ n)
    (hm : c.rest.length ≤ m) (h : c.StuckIn (Stuck .statements) e) :
    (statements p m).Fails c e := by
  induction m generalizing c with
  | zero =>
    have hend : c.peek = .endOfInput := peek_of_length_eq_zero (Nat.le_zero.1 hm)
    rcases stuckIn_statements_cases h with ⟨-, rfl⟩ | ⟨hne, -⟩ | ⟨s, c', hs, -⟩
    · exact fails_fail _ _
    · exact absurd hend hne
    · have := hs.length_lt
      omega
  | succ m ih =>
    rw [statements, fails_peek_bind]
    rcases stuckIn_statements_cases h with ⟨hend, rfl⟩ | ⟨hend, hbrace, hs⟩ | ⟨s, c', hs, h⟩
    · rw [hend]
      exact fails_fail _ _
    · split
      · contradiction
      · contradiction
      · exact (statement_fails hp hn hs).bind _
    · have hbegins := hs.beginsStatement
      have hlt := hs.length_lt
      split
      · next hc => exact absurd hbegins (by rw [hc]; decide)
      · next hc => exact absurd hbegins (by rw [hc]; decide)
      · rw [fails_bind_of_ok (statement_complete hc hn hs)]
        exact (ih (by omega) (by omega) h).bind _

theorem block_fails (hc : p.Complete n) (hp : p.StuckComplete n) (hn : c.rest.length ≤ n + 1)
    (h : c.StuckIn (Stuck .block) e) : (block p).Fails c e := by
  obtain ⟨ts, c₁, hstuck, hpass, hfound⟩ := h
  cases hstuck with
  | @notOpened t ht =>
    obtain rfl := passes_nil.1 hpass
    obtain rfl : c₁.peek = t := hfound
    exact fails_expect_of_ne ht
  | opened h =>
    obtain ⟨hopen, -, hpass⟩ := hpass
    have hlength := length_eq_next (by simp [hopen] : c.peek ≠ .endOfInput)
    rw [block, fails_expect_of_eq hopen, fails_enter_bind, fails_unread_bind,
      ← pass_of_leftBrace hopen]
    refine statements_fails hc hp ?_ (Nat.le_refl _) ⟨_, _, h, hpass, hfound⟩
    change c.next.rest.length ≤ n
    omega

/-! ### Lists of arguments and parameters -/

section Lists

variable {α : Type} {item : Parser α} {W : α → List Token → Token → Prop}
  {S : List Token → ParseError → Prop}

lemma ends_moreItems_of_comma {r : Except ParseError (List α)} {c' : Cursor}
    (hc : c.peek = .symbol .comma) : (moreItems item (m + 1)).Ends c r c' ↔
      (item >>= fun a => moreItems item m >>= fun as => pure (a :: as)).Ends c.next r c' := by
  rw [moreItems, ends_peek_bind, if_pos hc, ends_next_bind]

/-- In a list that is stuck, the first item fails, or what follows it does: a further item, or the
parenthesis behind the items. -/
lemma listStuck_cases
    (hitem : ∀ {c a ts c'}, c.rest.length ≤ n → W a ts c'.peek → c.Passes ts c' →
      item.Ends c (.ok a) c')
    (hfails : ∀ {c e}, c.rest.length ≤ n → c.StuckIn S e → item.Fails c e)
    (h : ListStuck W S ts e) (hpass : c.Passes ts c₁) (hfound : c₁.peek = e.found)
    (hn : c.rest.length ≤ n) :
    item.Fails c e ∨ ∃ a c₂, item.Ends c (.ok a) c₂ ∧ c₂.rest.length ≤ c.rest.length ∧
      ∀ m, c₂.rest.length ≤ m → (moreItems item m).Fails c₂ e ∨
        ∃ as c₃, (moreItems item m).Ends c₂ (.ok as) c₃ ∧ c₃.peek ≠ .symbol .rightParen ∧
          e = .expected (.symbol .rightParen) c₃.peek := by
  induction h generalizing c with
  | item h => exact Or.inl (hfails hn ⟨_, _, h, hpass, hfound⟩)
  | @notClosed a ts t h hcomma hparen =>
    obtain rfl : c₁.peek = t := hfound
    have hlength := hpass.length_eq
    refine Or.inr ⟨a, c₁, hitem hn h hpass, by omega, ?_⟩
    intro m _
    refine Or.inr ⟨[], c₁, ?_, hparen, rfl⟩
    rcases m with _ | m
    · exact ⟨rfl, rfl⟩
    · simp [moreItems, hcomma]
  | @further a ts us e h h' ih =>
    obtain ⟨c₂, hts, hrest⟩ := passes_append.1 hpass
    obtain ⟨hc₂, hus⟩ := (passes_plain rfl).1 hrest
    have hlength := hts.length_eq
    have hlength₂ := length_eq_next (by simp [hc₂] : c₂.peek ≠ .endOfInput)
    refine Or.inr ⟨a, c₂, hitem hn (hc₂ ▸ h) hts, by omega, ?_⟩
    intro m hm
    obtain ⟨m, rfl⟩ : ∃ k, m = k + 1 := ⟨m - 1, by omega⟩
    simp only [Fails, ends_moreItems_of_comma hc₂]
    rcases ih hus hfound (by omega) with h | ⟨a', c₃, ha', hlength₃, hmore⟩
    · exact Or.inl (h.bind _)
    · rcases hmore m (by omega) with h | ⟨as, c₄, has, hc₄⟩
      · exact Or.inl ((fails_bind_of_ok ha').2 (h.bind _))
      · exact Or.inr ⟨a' :: as, c₄, (ends_bind_of_ok ha').2 (Ends.map (a' :: ·) has), hc₄⟩

lemma items_fails
    (hitem : ∀ {c a ts c'}, c.rest.length ≤ n → W a ts c'.peek → c.Passes ts c' →
      item.Ends c (.ok a) c')
    (hfails : ∀ {c e}, c.rest.length ≤ n → c.StuckIn S e → item.Fails c e)
    (h : c.StuckIn (ListStuck W S) e) (hc : c.peek ≠ .symbol .rightParen)
    (hn : c.rest.length ≤ n) : (items item).Fails c e := by
  obtain ⟨ts, c₁, hlist, hpass, hfound⟩ := h
  rw [items, fails_peek_bind, if_neg hc]
  rcases listStuck_cases hitem hfails hlist hpass hfound hn with h | ⟨a, c₂, ha, -, hmore⟩
  · exact h.bind _
  rw [fails_bind_of_ok ha, fails_unread_bind]
  rcases hmore _ (Nat.le_refl _) with h | ⟨as, c₃, has, hc₃, rfl⟩
  · exact h.bind _
  · rw [fails_bind_of_ok has]
    exact fails_expect_of_ne hc₃

end Lists

lemma arguments_fails (hc : p.Complete n) (hp : p.StuckComplete n) (hn : c.rest.length ≤ n)
    (hne : c.peek ≠ .symbol .rightParen) (h : c.StuckIn (Stuck .arguments) e) :
    (items (p.expression .lowest)).Fails c e := by
  have hlist : c.StuckIn (ListStuck ArgumentSpelled (Stuck (.expression .lowest))) e :=
    h.mono fun us hus _ => listStuck_arguments_iff.2 hus
  refine items_fails ?_ ?_ hlist hne hn
  · rintro c x ts c' hn ⟨l, o, hform, hstop⟩ hpass
    exact hc.expression (by decide) hn ⟨l, o, ts, hform, hform.admits_lowest, hpass, hstop⟩
  · intro c e hn h
    exact hp.expression (by decide) hn h

lemma parameters_fails (hne : c.peek ≠ .symbol .rightParen)
    (h : c.StuckIn (ListStuck ParameterSpelled ParameterStuck) e) :
    (items parameter : Parser (List String)).Fails c e := by
  refine items_fails ?_ ?_ h hne (Nat.le_refl _)
  · rintro c name _ c' - rfl hpass
    obtain ⟨hc, rfl⟩ := (passes_plain rfl).1 hpass
    simp [parameter, hc]
  · rintro c e - ⟨_, c₁, ⟨rfl, t, ht, rfl⟩, hpass, hfound⟩
    obtain rfl := passes_nil.1 hpass
    obtain rfl : c₁.peek = t := hfound
    rw [parameter, fails_peek_bind, fails_next_bind]
    split
    · next name hname => exact absurd hname (ht name)
    · exact fails_fail _ _

/-! ### Operands -/

/-- An expression that is stuck, and the parenthesis that would follow it. -/
lemma closed_fails {α : Type} (hc : p.Complete n) (hp : p.StuckComplete n)
    (hn : c.rest.length ≤ n) (h : c.StuckIn (Stuck .closed) e) (f : Expression → Parser α) :
    (p.expression .lowest >>= fun x => expect (.symbol .rightParen) >>= fun _ => f x).Fails c e := by
  obtain ⟨ts, c₁, hstuck, hpass, hfound⟩ := h
  cases hstuck with
  | inside h => exact (hp.expression (by decide) hn ⟨_, _, h, hpass, hfound⟩).bind _
  | @notClosed x l o _ t h hstop hparen =>
    obtain rfl : c₁.peek = t := hfound
    have hx : (p.expression .lowest).Ends c (.ok x) c₁ :=
      hc.expression (by decide) hn ⟨l, o, ts, h, h.admits_lowest, hpass, hstop⟩
    rw [fails_bind_of_ok hx]
    exact fails_expect_of_ne hparen

lemma noOperand_fails (c : Cursor) :
    (noOperand : Parser Expression).Fails c (.noExpressionAt c.peek) := by
  rw [noOperand, fails_peek_bind, fails_next_bind]
  exact fails_fail _ _

lemma operand_fails (hc : ¬ c.peek.beginsExpression) :
    (operand p).Fails c (.noExpressionAt c.peek) := by
  rw [operand, fails_peek_bind]
  split
  case h_11 => exact noOperand_fails c
  all_goals simp_all [Token.beginsExpression]

lemma integer_fails {digits : String} (hc : c.peek = .int digits)
    (h : Integer.ofInt? (Decimal.value digits.toList) = none) :
    (operand p).Fails c (.integerTooLarge digits) := by
  rw [operand, fails_peek_bind, hc]
  show (called .integer (integer digits) : Parser Expression).Fails c _
  rw [fails_called, integer, fails_next_bind, h]
  exact fails_fail _ _

lemma unary_fails (hp : p.StuckComplete n) (op : UnaryOp) (hc : c.peek = .symbol op.sign)
    (hn : c.rest.length ≤ n + 1) (h : c.next.StuckIn (Stuck (.expression .unary)) e) :
    (operand p).Fails c e := by
  have hlength := length_eq_next (by simp [hc] : c.peek ≠ .endOfInput)
  have hend : (unary p op).Fails c e := by
    rw [unary, fails_next_bind]
    exact (hp.expression (by decide) (by omega) h).bind _
  rw [operand, fails_peek_bind, hc]
  cases op with
  | not => exact hend
  | negate => exact hend

lemma grouped_fails (hc : p.Complete n) (hp : p.StuckComplete n)
    (hopen : c.peek = .symbol .leftParen) (hn : c.rest.length ≤ n + 1)
    (h : c.next.StuckIn (Stuck .closed) e) : (operand p).Fails c e := by
  have hlength := length_eq_next (by simp [hopen] : c.peek ≠ .endOfInput)
  rw [operand, fails_peek_bind, hopen]
  show (grouped p).Fails c e
  rw [grouped, fails_next_bind]
  exact closed_fails hc hp (by omega) h _

lemma braces_fails (hc : p.Complete n) (hp : p.StuckComplete n) (hopen : c.peek = .symbol .leftBrace)
    (hn : c.rest.length ≤ n + 1) (h : c.StuckIn (Stuck .block) e) : (operand p).Fails c e := by
  rw [operand, fails_peek_bind, hopen]
  exact (block_fails hc hp hn h).bind _

/-- A conditional or a function fails right behind its first word. -/
lemma word_fails {k : Keyword} (hk : k = .ifWord ∨ k = .fnWord) (hc : c.peek = .keyword k)
    (hne : c.next.peek ≠ .symbol .leftParen) :
    (operand p).Fails c (.expected (.symbol .leftParen) c.next.peek) := by
  rw [operand, fails_peek_bind, hc]
  rcases hk with rfl | rfl
  · show (conditional p).Fails c _
    rw [conditional, fails_next_bind]
    exact fails_expect_of_ne hne
  · show (function p).Fails c _
    rw [function, fails_next_bind]
    exact fails_expect_of_ne hne

lemma condition_fails (hc : p.Complete n) (hp : p.StuckComplete n)
    (hif : c.peek = .keyword .ifWord) (hopen : c.next.peek = .symbol .leftParen)
    (hn : c.rest.length ≤ n + 1) (h : c.next.next.StuckIn (Stuck .closed) e) :
    (operand p).Fails c e := by
  have hlength := length_eq_next (by simp [hif] : c.peek ≠ .endOfInput)
  have hlength₁ := length_eq_next (by simp [hopen] : c.next.peek ≠ .endOfInput)
  rw [operand, fails_peek_bind, hif]
  show (conditional p).Fails c e
  rw [conditional, fails_next_bind, fails_expect_of_eq hopen]
  exact closed_fails hc hp (by omega) h _

/-- A conditional fails in its first block. -/
lemma consequence_fails (hc : p.Complete n) (hp : p.StuckComplete n) {x : Expression} {l : Level}
    {o : Bool} (h : Form (.expression x l o) ts)
    (hpass : c.Passes (.keyword .ifWord :: inParens ts) c₁) (hn : c.rest.length ≤ n + 1)
    (hblock : c₁.StuckIn (Stuck .block) e) : (operand p).Fails c e := by
  have hlength := hpass.length_eq
  obtain ⟨hif, hpass⟩ := (passes_plain rfl).1 hpass
  obtain ⟨hopen, hpass⟩ := (passes_plain rfl).1 hpass
  obtain ⟨c₂, hts, hclose⟩ := passes_append.1 hpass
  obtain ⟨hc₂, rfl⟩ := (passes_plain rfl).1 hclose
  have hlength₁ := length_eq_next (by simp [hif] : c.peek ≠ .endOfInput)
  have hlength₂ := length_eq_next (by simp [hopen] : c.next.peek ≠ .endOfInput)
  rw [operand, fails_peek_bind, hif]
  show (conditional p).Fails c e
  rw [conditional, fails_next_bind, fails_expect_of_eq hopen,
    fails_bind_of_ok (closed_complete hc h hts hc₂ (by omega)), fails_expect_of_eq hc₂]
  exact (block_fails hc hp (by omega) hblock).bind _

/-- A conditional fails in its second block. -/
lemma alternative_fails (hc : p.Complete n) (hp : p.StuckComplete n) {x : Expression} {l : Level}
    {o : Bool} {t : List Statement} {us : List Token} (h : Form (.expression x l o) ts)
    (ht : Form (.statements t) us)
    (hpass : c.Passes (.keyword .ifWord :: (inParens ts ++ inBraces us)) c₁)
    (helse : c₁.peek = .keyword .elseWord) (hn : c.rest.length ≤ n + 1)
    (hblock : c₁.next.StuckIn (Stuck .block) e) : (operand p).Fails c e := by
  have hlength := hpass.length_eq
  have hlength₁ := length_eq_next (by simp [helse] : c₁.peek ≠ .endOfInput)
  obtain ⟨c', hend⟩ := block_fails hc hp (by omega) hblock
  refine ⟨c', (consequence_complete hc h ht hpass hn).2 ?_⟩
  rw [if_pos helse, ends_next_bind]
  exact ends_map_error.2 hend

lemma functionParameters_fails (hfn : c.peek = .keyword .fnWord)
    (hopen : c.next.peek = .symbol .leftParen) (hne : c.next.next.peek ≠ .symbol .rightParen)
    (h : c.next.next.StuckIn (ListStuck ParameterSpelled ParameterStuck) e) :
    (operand p).Fails c e := by
  rw [operand, fails_peek_bind, hfn]
  show (function p).Fails c e
  rw [function, fails_next_bind, fails_expect_of_eq hopen]
  exact (parameters_fails hne h).bind _

lemma body_fails (hc : p.Complete n) (hp : p.StuckComplete n) (names : List String)
    (hpass : c.Passes (.keyword .fnWord :: inParens (Form.parameters names)) c₁)
    (hn : c.rest.length ≤ n + 1) (hblock : c₁.StuckIn (Stuck .block) e) :
    (operand p).Fails c e := by
  have hlength := hpass.length_eq
  obtain ⟨hfn, hpass⟩ := (passes_plain rfl).1 hpass
  obtain ⟨hopen, hnames⟩ := (passes_plain rfl).1 hpass
  rw [operand, fails_peek_bind, hfn]
  show (function p).Fails c e
  rw [function, fails_next_bind, fails_expect_of_eq hopen,
    fails_bind_of_ok (parameters_complete hnames)]
  exact (block_fails hc hp (by omega) hblock).bind _

/-! ### Operators and calls -/

/-- Where an expression is stuck in its first operand, the operand fails. -/
lemma expression_of_operand_fails (h : (operand p).Fails c e) : (expression p lv).Fails c e := by
  rw [expression, fails_called]
  exact h.bind _

/-- Where an expression is stuck behind its left operand, it fails if the continuation does. -/
lemma expression_of_continuation_fails (hc : p.Complete n) {left : Expression} {l : Level}
    {o : Bool} {k : Continuation} (h : Form (.expression left l o) ts) (hpass : c.Passes ts c₁)
    (hlv : lv < .call) (hk : Continuation.ofToken? c₁.peek = some k) (hlt : lv < k.level)
    (hl : k.level ≤ l) (hn : c.rest.length ≤ n + 1) (hfails : (continuation p left k).Fails c₁ e) :
    (expression p lv).Fails c e := by
  obtain ⟨c', hend⟩ := hfails
  have hadmits : lv.Admits l := Or.inl (Nat.lt_of_lt_of_le hlt hl)
  refine ⟨c', expression_of_form hc h hpass hlv hadmits (Token.not_extends_of_level_le hk hl) hn ?_⟩
  intro m hm
  have hne : c₁.peek ≠ .endOfInput := by
    intro hpeek
    rw [hpeek] at hk
    cases hk
  have hlength := length_eq_next hne
  obtain ⟨m, rfl⟩ : ∃ k, m = k + 1 := ⟨m - 1, by omega⟩
  rw [continued, ends_peek_bind, hk]
  show (if lv < k.level then _ else _ : Parser Expression).Ends c₁ _ c'
  rw [if_pos hlt]
  exact (ends_bind_of_error hend).2 ⟨rfl, rfl⟩

theorem expression_fails (hc : p.Complete n) (hp : p.StuckComplete n) (hlv : lv < .call)
    (hn : c.rest.length ≤ n + 1) (h : c.StuckIn (Stuck (.expression lv)) e) :
    (expression p lv).Fails c e := by
  obtain ⟨ts, c₁, hstuck, hpass, hfound⟩ := h
  cases hstuck with
  | @noOperand _ t ht =>
    obtain rfl := passes_nil.1 hpass
    obtain rfl : c₁.peek = t := hfound
    exact expression_of_operand_fails (operand_fails ht)
  | tooLarge h =>
    obtain rfl := passes_nil.1 hpass
    exact expression_of_operand_fails (integer_fails hfound h)
  | unary op h =>
    obtain ⟨hop, hpass⟩ := (passes_plain (by simp)).1 hpass
    exact expression_of_operand_fails (unary_fails hp op hop hn ⟨_, _, h, hpass, hfound⟩)
  | grouped h =>
    obtain ⟨hopen, hpass⟩ := (passes_plain rfl).1 hpass
    exact expression_of_operand_fails (grouped_fails hc hp hopen hn ⟨_, _, h, hpass, hfound⟩)
  | braces h =>
    have hstuck : c.StuckIn (Stuck .block) e := ⟨_, _, .opened h, hpass, hfound⟩
    exact expression_of_operand_fails (braces_fails hc hp hpass.peek_eq hn hstuck)
  | @conditional _ t ht =>
    obtain ⟨hif, rfl⟩ := (passes_plain rfl).1 hpass
    obtain rfl : c.next.peek = t := hfound
    exact expression_of_operand_fails (word_fails (Or.inl rfl) hif ht)
  | condition h =>
    obtain ⟨hif, hpass⟩ := (passes_plain rfl).1 hpass
    obtain ⟨hopen, hpass⟩ := (passes_plain rfl).1 hpass
    exact expression_of_operand_fails
      (condition_fails hc hp hif hopen hn ⟨_, _, h, hpass, hfound⟩)
  | consequence h h' =>
    rw [← List.cons_append] at hpass
    obtain ⟨c₂, hcondition, hpass⟩ := passes_append.1 hpass
    exact expression_of_operand_fails
      (consequence_fails hc hp h hcondition hn ⟨_, _, h', hpass, hfound⟩)
  | alternative h ht h' =>
    rw [← List.cons_append] at hpass
    obtain ⟨c₂, hconsequence, hpass⟩ := passes_append.1 hpass
    obtain ⟨helse, hpass⟩ := (passes_plain rfl).1 hpass
    exact expression_of_operand_fails
      (alternative_fails hc hp h ht hconsequence helse hn ⟨_, _, h', hpass, hfound⟩)
  | @function _ t ht =>
    obtain ⟨hfn, rfl⟩ := (passes_plain rfl).1 hpass
    obtain rfl : c.next.peek = t := hfound
    exact expression_of_operand_fails (word_fails (Or.inr rfl) hfn ht)
  | parameters h hts =>
    obtain ⟨hfn, hpass⟩ := (passes_plain rfl).1 hpass
    obtain ⟨hopen, hpass⟩ := (passes_plain rfl).1 hpass
    rw [← hfound, ← hpass.headD_eq] at hts
    exact expression_of_operand_fails
      (functionParameters_fails hfn hopen hts ⟨_, _, h, hpass, hfound⟩)
  | body names h =>
    rw [← List.cons_append] at hpass
    obtain ⟨c₂, hparameters, hpass⟩ := passes_append.1 hpass
    exact expression_of_operand_fails
      (body_fails hc hp names hparameters hn ⟨_, _, h, hpass, hfound⟩)
  | operator op hlt hl h h' =>
    obtain ⟨c₂, hts, hop⟩ := passes_append.1 hpass
    obtain ⟨hc₂, hus⟩ := (passes_plain (by simp)).1 hop
    have hlength := hts.length_eq
    have hlength₂ := length_eq_next (by simp [hc₂] : c₂.peek ≠ .endOfInput)
    have hk : Continuation.ofToken? c₂.peek = some (.operator op) := by simp [hc₂]
    refine expression_of_continuation_fails hc h hts hlv hk hlt hl hn ?_
    rw [continuation, fails_called, binary, fails_next_bind]
    refine (hp.expression ?_ (by omega) ⟨_, _, h', hus, hfound⟩).bind _
    exact Nat.lt_trans op.level_lt_unary (by decide)
  | call h h' hne =>
    obtain ⟨c₂, hts, hopen⟩ := passes_append.1 hpass
    obtain ⟨hc₂, hus⟩ := (passes_plain rfl).1 hopen
    have hlength := hts.length_eq
    have hlength₂ := length_eq_next (by simp [hc₂] : c₂.peek ≠ .endOfInput)
    rw [← hfound, ← hus.headD_eq] at hne
    have hk : Continuation.ofToken? c₂.peek = some .arguments := by simp [hc₂]
    refine expression_of_continuation_fails hc h hts hlv hk hlv (Level.le_call _) hn ?_
    rw [continuation, call, fails_next_bind]
    exact (arguments_fails hc hp (by omega) hne ⟨_, _, h', hus, hfound⟩).bind _

end Grammar

/-- At the end of the input a phrase is stuck at once. -/
lemma Cursor.StuckIn.of_length_eq_zero {c : Cursor} {L : List Token → ParseError → Prop}
    {e : ParseError} (h : c.StuckIn L e) (hn : c.rest.length ≤ 0) :
    L [] e ∧ e.found = .endOfInput := by
  obtain ⟨ts, c₁, hstuck, hpass, hfound⟩ := h
  have hlength := hpass.length_eq
  obtain rfl : ts = [] := List.eq_nil_of_length_eq_zero (by omega)
  obtain rfl := passes_nil.1 hpass
  exact ⟨hstuck, hfound.symm.trans (peek_of_length_eq_zero (Nat.le_zero.1 hn))⟩

/-- The parsers for the parts of a text fail wherever a phrase is stuck. -/
theorem Parts.stuckComplete_ofDepth (n : Nat) : (Parts.ofDepth n).StuckComplete n := by
  induction n with
  | zero =>
    constructor
    · intro lv c e _ hn h
      obtain ⟨hstuck, hfound⟩ := h.of_length_eq_zero hn
      generalize hts : ([] : List Token) = ts at hstuck
      cases hstuck with
      | @noOperand _ t ht =>
        obtain rfl : t = .endOfInput := hfound
        rw [← Cursor.peek_of_length_eq_zero (Nat.le_zero.1 hn)]
        exact Grammar.noOperand_fails c
      | tooLarge => cases hfound
      | operator | call => simp at hts
      | _ => cases hts
    · intro c e hn h
      obtain ⟨hstuck, hfound⟩ := h.of_length_eq_zero hn
      cases hstuck with
      | @notOpened t ht =>
        obtain rfl : t = .endOfInput := hfound
        exact Parser.fails_fail _ _
  | succ n ih =>
    have hc := Parts.complete_ofDepth n
    exact ⟨fun hlv hn h => Grammar.expression_fails hc ih hlv hn h,
      fun hn h => Grammar.block_fails hc ih hn h⟩

end TreeWalk
