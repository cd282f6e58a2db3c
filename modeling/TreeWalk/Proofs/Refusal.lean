/-
# Where statements are refused

A parser that fails stops at the token that is to blame, in one of two ways.  Either a token is
missing behind the token read last, and whatever stands there instead stays unread; or the token
read last is one that cannot stand where it does.  `Cursor.Refuses` says so, together with what
is known about the tokens read before:

* a token that is missing is missed behind a token that ends neither a statement nor the
  beginning of a block, and behind a closing brace only `)` can be missed;
* a token that cannot stand where it does may follow a semicolon, but then it is inside a block
  that was opened on the way.
-/
import TreeWalk.Proofs.Form.Sound

namespace TreeWalk

/-- The token that an error speaks of. -/
def ParseError.found : ParseError → Token
  | expected _ t => t
  | noExpressionAt t => t
  | integerTooLarge digits => .int digits

namespace Cursor

/-- Tokens with balanced braces stand between two places, and the last of them ends neither a
statement nor the beginning of a block. -/
def Clears (c c' : Cursor) : Prop :=
  ∃ ts, ts ≠ [] ∧ c.Passes ts c' ∧ c'.depth = c.depth ∧
    c'.last ≠ .symbol .semicolon ∧ c'.last ≠ .symbol .leftBrace

/-- How a parser fails that began at the place `c`. -/
inductive Refuses (c : Cursor) : ParseError → Cursor → Prop
  /-- A token is missing behind the token read last. -/
  | missing {ts : List Token} {c' : Cursor} {wanted : Token} (hts : ts ≠ []) (h : c.Passes ts c')
    (hne : c'.peek ≠ wanted) (hsemi : c'.last ≠ .symbol .semicolon)
    (hopen : c'.last ≠ .symbol .leftBrace)
    (hclose : c'.last = .symbol .rightBrace → wanted = .symbol .rightParen) :
    Refuses c (.expected wanted c'.peek) c'
  /-- The token read last, in front of which is the place `c'`, cannot stand there. -/
  | offending {ts : List Token} {c' : Cursor} {e : ParseError} (h : c.Passes ts c')
    (he : e.found = c'.peek) (hparen : ∀ t, e ≠ .expected (.symbol .rightParen) t)
    (hdepth : c.depth ≤ c'.depth)
    (hlast : ts ≠ [] → c'.last = .symbol .semicolon → c.depth < c'.depth) :
    Refuses c e c'.next

variable {c c₁ c' : Cursor} {e : ParseError} {t : Token} {ts us : List Token}

/-! ### Tokens with balanced braces -/

lemma Clears.trans (h : c.Clears c₁) (h' : c₁.Clears c') : c.Clears c' := by
  obtain ⟨ts, hts, hpass, hdepth, -⟩ := h
  obtain ⟨us, -, hpass', hdepth', hlast⟩ := h'
  exact ⟨ts ++ us, by simp [hts], hpass.trans hpass', hdepth'.trans hdepth, hlast⟩

lemma Clears.length_lt (h : c.Clears c') : c'.rest.length < c.rest.length := by
  obtain ⟨ts, hts, hpass, -⟩ := h
  have := List.length_pos_iff.2 hts
  have := hpass.length_eq
  omega

lemma clears_next (h : c.peek.isPlain) (hne : c.peek ≠ .symbol .semicolon) : c.Clears c.next := by
  refine ⟨[c.peek], by simp, .single rfl h, rfl, hne, ?_⟩
  intro hbrace
  rw [last_next] at hbrace
  rw [hbrace] at h
  cases h

lemma clears_of_peek (hc : c.peek = t) (ht : t.isPlain) (hne : t ≠ .symbol .semicolon) :
    c.Clears c.next :=
  clears_next (hc.symm ▸ ht) (hc.symm ▸ hne)

/-- Tokens with balanced braces, by what they end with. -/
lemma Passes.clears (h : c.Passes ts c') (hdepth : ∀ d, Token.depthAfter d ts = d)
    (hlast : ts.getLast? = some t) (ht : t.endsExpression) : c.Clears c' := by
  have hc' : c'.last = t := by rw [h.last_eq, List.getLastD_eq_getLast?, hlast]; rfl
  refine ⟨ts, ?_, h, h.depth_eq.trans (hdepth _), ?_, ?_⟩
  · rintro rfl
    cases hlast
  · rw [hc']
    rintro rfl
    cases ht
  · rw [hc']
    rintro rfl
    cases ht

lemma HoldsExpression.clears {lv : Level} {e : Expression} (h : c.HoldsExpression lv e c') :
    c.Clears c' := by
  obtain ⟨l, o, ts, hform, -, hpass, -⟩ := h
  obtain ⟨t, hlast, ht⟩ := hform.exists_last
  exact hpass.clears hform.depthAfter hlast ht

lemma HoldsBlock.clears {ss : List Statement} (h : c.HoldsBlock ss c') : c.Clears c' := by
  obtain ⟨ts, hform, hpass⟩ := h
  have hblock := (Form.block hform).depthAfter
  exact hpass.clears hblock (t := .symbol .rightBrace)
    (by simp [Form.inBraces, List.getLast?_cons]) rfl

/-! ### Refusals further on -/

/-- What is refused behind tokens is refused by whoever began in front of them. -/
lemma Refuses.passed (h : c₁.Refuses e c') (hpass : c.Passes us c₁) (hdepth : c.depth ≤ c₁.depth)
    (hus : us ≠ [] → c₁.last = .symbol .semicolon → c.depth < c₁.depth) : c.Refuses e c' := by
  cases h with
  | missing hts h hne hsemi hopen hclose =>
    exact .missing (by simp [hts]) (hpass.trans h) hne hsemi hopen hclose
  | @offending ts c₂ _ h he hparen hdepth' hlast =>
    refine .offending (hpass.trans h) he hparen (Nat.le_trans hdepth hdepth') fun hne hsemi => ?_
    cases ts with
    | nil =>
      -- the offending token comes first, and the token in front of it is the last of `us`
      cases h
      exact hus (by simpa using hne) hsemi
    | cons t ts => exact Nat.lt_of_le_of_lt hdepth (hlast (by simp) hsemi)

lemma Refuses.behind (h : c₁.Refuses e c') (h' : c.Clears c₁) : c.Refuses e c' := by
  obtain ⟨us, -, hpass, hdepth, hsemi, -⟩ := h'
  exact h.passed hpass (Nat.le_of_eq hdepth.symm) fun _ hlast => absurd hlast hsemi

/-- A token is missing behind tokens with balanced braces. -/
lemma Clears.missing (h : c.Clears c') (hne : c'.peek ≠ t)
    (hclose : c'.last = .symbol .rightBrace → t = .symbol .rightParen) :
    c.Refuses (.expected t c'.peek) c' := by
  obtain ⟨ts, hts, hpass, -, hsemi, hopen⟩ := h
  exact .missing hts hpass hne hsemi hopen hclose

/-- The next token cannot stand where it does. -/
lemma refuses_next (he : e.found = c.peek) (hparen : ∀ t, e ≠ .expected (.symbol .rightParen) t) :
    c.Refuses e c.next :=
  .offending (.refl c) he hparen (Nat.le_refl _) fun hne => absurd rfl hne

end Cursor

/-- The parsers for parts fail in one of the two ways in a text of at most `n` tokens; a block can
also lack the brace that opens it. -/
structure Parts.Refused (p : Parts) (n : Nat) : Prop where
  expression : ∀ {lv c e c'}, c.rest.length ≤ n → (p.expression lv).Ends c (.error e) c' →
    c.Refuses e c'
  block : ∀ {c e c'}, c.rest.length ≤ n → c.peek = .symbol .leftBrace →
    p.block.Ends c (.error e) c' → c.Refuses e c'

namespace Grammar

open TreeWalk.Parser TreeWalk.Cursor

variable {p : Parts} {n : Nat} {c c₁ c' : Cursor} {e : ParseError}

/-! ### Statements -/

lemma ended_refused {q : Parser Expression} {f : Expression → Statement}
    (h : (q >>= fun e => skip (.symbol .semicolon) >>= fun _ => pure (f e)).Ends c (.error e) c') :
    q.Ends c (.error e) c' := by
  rcases ends_bind_error.1 h with h | ⟨a, c₁, -, h⟩
  · exact h
  · rw [ends_skip_bind, ends_pure] at h
    cases h.1

lemma binding_refused (hp : p.Refused n) (hn : c.rest.length ≤ n)
    (hc : c.peek = .keyword .letWord) (h : (binding p).Ends c (.error e) c') :
    c.Refuses e c' := by
  have hlet : c.Clears c.next := clears_of_peek hc rfl (by simp)
  rw [binding, ends_next_bind, ends_peek_bind] at h
  split at h
  · next name hname =>
    have hident : c.Clears c.next.next := hlet.trans (clears_of_peek hname rfl (by simp))
    rw [ends_next_bind, ends_expect_bind_error] at h
    obtain ⟨hassign, h⟩ | ⟨hassign, rfl, rfl⟩ := h
    · have hequals := hident.trans (clears_of_peek hassign rfl (by simp))
      have hlt := hequals.length_lt
      exact (hp.expression (by omega) (ended_refused h)).behind hequals
    · exact hident.missing hassign (by simp [hname])
  · next t hname =>
    obtain ⟨he, rfl⟩ := ends_fail.1 h
    obtain rfl := Except.error.inj he
    exact hlet.missing (hname _) (by simp [hc])

lemma returning_refused (hp : p.Refused n) (hn : c.rest.length ≤ n)
    (hc : c.peek = .keyword .returnWord) (h : (returning p).Ends c (.error e) c') :
    c.Refuses e c' := by
  have hreturn : c.Clears c.next := clears_of_peek hc rfl (by simp)
  have hlt := hreturn.length_lt
  rw [returning, ends_next_bind] at h
  exact (hp.expression (by omega) (ended_refused h)).behind hreturn

lemma blockStatement_refused (hp : p.Refused n) (hn : c.rest.length ≤ n)
    (hc : c.peek = .symbol .leftBrace) (h : (blockStatement p).Ends c (.error e) c') :
    c.Refuses e c' := by
  rcases ends_bind_error.1 h with h | ⟨body, c₁, -, h⟩
  · exact hp.block hn hc h
  · rw [ends_skip_bind, ends_pure] at h
    cases h.1

theorem statement_refused (hp : p.Refused n) (hn : c.rest.length ≤ n)
    (h : (statement p).Ends c (.error e) c') : c.Refuses e c' := by
  rw [statement, ends_called, ends_peek_bind] at h
  split at h
  · next hc => exact binding_refused hp hn hc h
  · next hc => exact returning_refused hp hn hc h
  · next hc => exact blockStatement_refused hp hn hc h
  · exact hp.expression hn (ended_refused h)

/-! ### Blocks -/

/-- The text ends inside a block. -/
lemma unclosed_refused {α : Type} (hc : c.peek = .endOfInput)
    (h : (unclosed : Parser α).Ends c (.error e) c') : c.Refuses e c' := by
  rw [unclosed, ends_next_bind, ends_fail] at h
  obtain ⟨he, rfl⟩ := h
  obtain rfl := Except.error.inj he
  exact refuses_next hc.symm (by simp)

/-- The statements of a block are refused where one of them is, or where the text ends. -/
lemma statements_refused (hs : p.Sound) (hp : p.Refused n) (hn : c.rest.length ≤ n) {m : Nat}
    (hm : c.rest.length ≤ m) (h : (statements p m).Ends c (.error e) c') :
    ∃ ts c₁, c.Passes ts c₁ ∧ c₁.depth = c.depth ∧ c₁.Refuses e c' := by
  induction m generalizing c with
  | zero =>
    have hrest : c.rest = [] := List.eq_nil_of_length_eq_zero (Nat.le_zero.1 hm)
    exact ⟨[], c, .refl c, rfl, unclosed_refused (by simp [Cursor.peek, hrest]) h⟩
  | succ m ih =>
    rw [statements, ends_peek_bind] at h
    split at h
    · rw [ends_next_bind, ends_leave_bind, ends_pure] at h
      cases h.1
    · next hc => exact ⟨[], c, .refl c, rfl, unclosed_refused hc h⟩
    · rcases ends_bind_error.1 h with h | ⟨s, c₁, hstatement, h⟩
      · exact ⟨[], c, .refl c, rfl, statement_refused hp hn h⟩
      · have hholds := statement_sound hs hstatement
        have hlt := hholds.length_lt
        obtain ⟨ts, c₂, hpass, hdepth, hrefuses⟩ := ih (by omega) (by omega) (ends_map_error.1 h)
        obtain ⟨us, -, hpass', hdepth'⟩ := hholds.passes
        exact ⟨us ++ ts, c₂, hpass'.trans hpass, hdepth.trans hdepth', hrefuses⟩

theorem block_refused (hs : p.Sound) (hp : p.Refused n) (hn : c.rest.length ≤ n + 1)
    (h : (block p).Ends c (.error e) c') :
    c.peek ≠ .symbol .leftBrace ∧ e = .expected (.symbol .leftBrace) c.peek ∧ c' = c ∨
      c.Refuses e c' := by
  rw [block, ends_expect_bind_error] at h
  obtain ⟨hc, h⟩ | hmissing := h
  · rw [ends_enter_bind, ends_unread_bind, ← pass_of_leftBrace hc] at h
    have hpass : c.Passes [.symbol .leftBrace] c.pass := .opened hc (.refl _)
    have hlength := hpass.length_eq
    rw [List.length_singleton] at hlength
    obtain ⟨ts, c₁, hts, hdepth, hrefuses⟩ := statements_refused hs hp (by omega) (Nat.le_refl _) h
    -- one more block is open in front of the refused statement than in front of the brace
    have hlt : c.depth < c₁.depth := by
      rw [hdepth, hpass.depth_eq]
      simp
    exact Or.inr (hrefuses.passed (hpass.trans hts) (Nat.le_of_lt hlt) fun _ _ => hlt)
  · exact Or.inl hmissing

/-! ### Lists of arguments and parameters -/

section Lists

variable {α : Type} {item : Parser α}

lemma moreItems_clears (hitem : ∀ {c a c'}, item.Ends c (.ok a) c' → c.Clears c') {m : Nat}
    {as : List α} (h : (moreItems item m).Ends c (.ok as) c') : c' = c ∨ c.Clears c' := by
  induction m generalizing c as with
  | zero => exact Or.inl (ends_pure.1 h).2.symm
  | succ m ih =>
    rw [moreItems, ends_peek_bind] at h
    split at h
    · next hc =>
      rw [ends_next_bind] at h
      obtain ⟨a, c₁, ha, h⟩ := ends_bind_ok.1 h
      obtain ⟨rest, hrest, -⟩ := ends_map_ok.1 h
      have hfirst := (clears_of_peek hc rfl (by simp)).trans (hitem ha)
      rcases ih hrest with rfl | hmore
      · exact Or.inr hfirst
      · exact Or.inr (hfirst.trans hmore)
    · exact Or.inl (ends_pure.1 h).2.symm

/-- The first item of a list and the further ones. -/
lemma items_clears_more (hitem : ∀ {c a c'}, item.Ends c (.ok a) c' → c.Clears c') {a : α}
    {as : List α} {m : Nat} {c₂ : Cursor} (ha : item.Ends c (.ok a) c₁)
    (has : (moreItems item m).Ends c₁ (.ok as) c₂) : c.Clears c₂ := by
  rcases moreItems_clears hitem has with rfl | hmore
  · exact hitem ha
  · exact (hitem ha).trans hmore

lemma items_clears (hitem : ∀ {c a c'}, item.Ends c (.ok a) c' → c.Clears c') {as : List α}
    (h : (items item).Ends c (.ok as) c') : c.Clears c' := by
  rw [items, ends_peek_bind] at h
  split at h
  · next hc =>
    rw [ends_next_bind, ends_pure] at h
    obtain ⟨-, rfl⟩ := h
    exact clears_of_peek hc rfl (by simp)
  · obtain ⟨a, c₁, ha, h⟩ := ends_bind_ok.1 h
    rw [ends_unread_bind] at h
    obtain ⟨rest, c₂, hrest, h⟩ := ends_bind_ok.1 h
    rw [ends_expect_bind_ok, ends_pure] at h
    obtain ⟨hc₂, -, rfl⟩ := h
    exact (items_clears_more hitem ha hrest).trans (clears_of_peek hc₂ rfl (by simp))

lemma moreItems_refused (hitem : ∀ {c a c'}, item.Ends c (.ok a) c' → c.Clears c')
    (hrefused : ∀ {c e c'}, c.rest.length ≤ n → item.Ends c (.error e) c' → c.Refuses e c')
    (hn : c.rest.length ≤ n) {m : Nat} (h : (moreItems item m).Ends c (.error e) c') :
    c.Refuses e c' := by
  induction m generalizing c with
  | zero => cases (ends_pure.1 h).1
  | succ m ih =>
    rw [moreItems, ends_peek_bind] at h
    split at h
    · next hc =>
      rw [ends_next_bind] at h
      have hcomma := clears_of_peek hc rfl (by simp)
      have hlt := hcomma.length_lt
      rcases ends_bind_error.1 h with h | ⟨a, c₁, ha, h⟩
      · exact (hrefused (by omega) h).behind hcomma
      · have hlt' := (hitem ha).length_lt
        exact (ih (by omega) (ends_map_error.1 h)).behind (hcomma.trans (hitem ha))
    · cases (ends_pure.1 h).1

/-- A list is refused where one of its items is, or where the parenthesis that closes it is
missing. -/
lemma items_refused (hitem : ∀ {c a c'}, item.Ends c (.ok a) c' → c.Clears c')
    (hrefused : ∀ {c e c'}, c.rest.length ≤ n → item.Ends c (.error e) c' → c.Refuses e c')
    (hn : c.rest.length ≤ n) (h : (items item).Ends c (.error e) c') : c.Refuses e c' := by
  rw [items, ends_peek_bind] at h
  split at h
  · rw [ends_next_bind, ends_pure] at h
    cases h.1
  rcases ends_bind_error.1 h with h | ⟨a, c₁, ha, h⟩
  · exact hrefused hn h
  have hlt := (hitem ha).length_lt
  rw [ends_unread_bind] at h
  rcases ends_bind_error.1 h with h | ⟨rest, c₂, hrest, h⟩
  · exact (moreItems_refused hitem hrefused (by omega) h).behind (hitem ha)
  · rw [ends_expect_bind_error] at h
    obtain ⟨-, h⟩ | ⟨hc₂, rfl, rfl⟩ := h
    · cases (ends_pure.1 h).1
    · exact (items_clears_more hitem ha hrest).missing hc₂ fun _ => rfl

end Lists

lemma parameter_clears {name : String} (h : (parameter : Parser String).Ends c (.ok name) c') :
    c.Clears c' :=
  (parameter_sound h).clears (by simp [Token.depthBehind]) rfl rfl

lemma parameter_refused (h : (parameter : Parser String).Ends c (.error e) c') :
    c.Refuses e c' := by
  rw [parameter, ends_peek_bind, ends_next_bind] at h
  split at h
  · cases (ends_pure.1 h).1
  · obtain ⟨he, rfl⟩ := ends_fail.1 h
    obtain rfl := Except.error.inj he
    exact refuses_next rfl (by simp)

/-! ### Operands -/

lemma integer_refused {digits : String} (hc : c.peek = .int digits)
    (h : (integer digits : Parser Expression).Ends c (.error e) c') : c.Refuses e c' := by
  rw [integer, ends_next_bind] at h
  split at h
  · cases (ends_pure.1 h).1
  · obtain ⟨he, rfl⟩ := ends_fail.1 h
    obtain rfl := Except.error.inj he
    exact refuses_next hc.symm (by simp)

lemma unary_refused (hp : p.Refused n) (op : UnaryOp) (hc : c.peek = .symbol op.sign)
    (hn : c.rest.length ≤ n + 1) (h : (unary p op).Ends c (.error e) c') : c.Refuses e c' := by
  have hsign : c.Clears c.next :=
    clears_of_peek hc (Token.isPlain_unary op) (by cases op <;> simp [UnaryOp.sign])
  have hlt := hsign.length_lt
  rw [unary, ends_next_bind, ends_map_error] at h
  exact (hp.expression (by omega) h).behind hsign

/-- An expression and the parenthesis behind it. -/
lemma closed_refused {α : Type} (hs : p.Sound) (hp : p.Refused n) (hn : c.rest.length ≤ n)
    {f : Expression → Parser α}
    (h : (p.expression .lowest >>= fun a => expect (.symbol .rightParen) >>= fun _ => f a).Ends c
      (.error e) c') :
    c.Refuses e c' ∨ ∃ a c₁, c.Clears c₁ ∧ c₁.last = .symbol .rightParen ∧
      (f a).Ends c₁ (.error e) c' := by
  rcases ends_bind_error.1 h with h | ⟨a, c₁, ha, h⟩
  · exact Or.inl (hp.expression hn h)
  have hclears := (hs.expression ha).clears
  rw [ends_expect_bind_error] at h
  obtain ⟨hc₁, h⟩ | ⟨hc₁, rfl, rfl⟩ := h
  · exact Or.inr ⟨a, _, hclears.trans (clears_of_peek hc₁ rfl (by simp)), hc₁, h⟩
  · exact Or.inl (hclears.missing hc₁ fun _ => rfl)

lemma grouped_refused (hs : p.Sound) (hp : p.Refused n) (hc : c.peek = .symbol .leftParen)
    (hn : c.rest.length ≤ n + 1) (h : (grouped p).Ends c (.error e) c') : c.Refuses e c' := by
  have hopen : c.Clears c.next := clears_of_peek hc rfl (by simp)
  have hlt := hopen.length_lt
  rw [grouped, ends_next_bind] at h
  rcases closed_refused hs hp (by omega) h with h | ⟨a, c₁, -, -, h⟩
  · exact h.behind hopen
  · cases (ends_pure.1 h).1

/-- A block that belongs to a construct is refused, or the brace that opens it is missing. -/
lemma body_refused (hs : p.Sound) (hp : p.Refused n) (hc : c.Clears c₁)
    (hbrace : c₁.last ≠ .symbol .rightBrace) (hn : c₁.rest.length ≤ n + 1)
    (h : (block p).Ends c₁ (.error e) c') : c.Refuses e c' := by
  rcases block_refused hs hp hn h with ⟨hopen, rfl, rfl⟩ | h
  · exact hc.missing hopen fun hlast => absurd hlast hbrace
  · exact h.behind hc

lemma conditional_refused (hs : p.Sound) (hp : p.Refused n) (hc : c.peek = .keyword .ifWord)
    (hn : c.rest.length ≤ n + 1) (h : (conditional p).Ends c (.error e) c') :
    c.Refuses e c' := by
  have hif : c.Clears c.next := clears_of_peek hc rfl (by simp)
  have hlt := hif.length_lt
  rw [conditional, ends_next_bind, ends_expect_bind_error] at h
  obtain ⟨hopen, h⟩ | ⟨hopen, rfl, rfl⟩ := h
  · have hparen := hif.trans (clears_of_peek hopen rfl (by simp))
    have hlt' := hparen.length_lt
    rcases closed_refused hs hp (by omega) h with h | ⟨condition, c₁, hcondition, hlast, h⟩
    · exact h.behind hparen
    have hclears := hparen.trans hcondition
    have hlt₁ := hclears.length_lt
    rcases ends_bind_error.1 h with h | ⟨consequence, c₂, hconsequence, h⟩
    · exact body_refused hs hp hclears (by simp [hlast]) (by omega) h
    have hblock := hclears.trans (block_sound hs hconsequence).clears
    rw [ends_peek_bind] at h
    split at h
    · next helse =>
      have hword := hblock.trans (clears_of_peek helse rfl (by simp))
      have hlt₂ := hword.length_lt
      rw [ends_next_bind, ends_map_error] at h
      exact body_refused hs hp hword (by simp [helse]) (by omega) h
    · cases (ends_pure.1 h).1
  · exact hif.missing hopen (by simp [hc])

lemma function_refused (hs : p.Sound) (hp : p.Refused n) (hc : c.peek = .keyword .fnWord)
    (hn : c.rest.length ≤ n + 1) (h : (function p).Ends c (.error e) c') : c.Refuses e c' := by
  have hfn : c.Clears c.next := clears_of_peek hc rfl (by simp)
  have hlt := hfn.length_lt
  rw [function, ends_next_bind, ends_expect_bind_error] at h
  obtain ⟨hopen, h⟩ | ⟨hopen, rfl, rfl⟩ := h
  · have hparen := hfn.trans (clears_of_peek hopen rfl (by simp))
    rcases ends_bind_error.1 h with h | ⟨names, c₁, hnames, h⟩
    · have hrefuses := items_refused parameter_clears (fun _ => parameter_refused) (Nat.le_refl _) h
      exact hrefuses.behind hparen
    have hclears := hparen.trans (items_clears parameter_clears hnames)
    have hlt' := hclears.length_lt
    have hlast : c₁.last = .symbol .rightParen := by
      rw [(parameters_sound hnames).last_eq]
      simp
    exact body_refused hs hp hclears (by simp [hlast]) (by omega) (ends_map_error.1 h)
  · exact hfn.missing hopen (by simp [hc])

lemma noOperand_refused (h : (noOperand : Parser Expression).Ends c (.error e) c') :
    c.Refuses e c' := by
  rw [noOperand, ends_peek_bind, ends_next_bind, ends_fail] at h
  obtain ⟨he, rfl⟩ := h
  obtain rfl := Except.error.inj he
  exact refuses_next rfl (by simp)

theorem operand_refused (hs : p.Sound) (hp : p.Refused n) (hn : c.rest.length ≤ n + 1)
    (h : (operand p).Ends c (.error e) c') : c.Refuses e c' := by
  rw [operand, ends_peek_bind] at h
  split at h
  · rw [ends_next_bind, ends_pure] at h
    cases h.1
  · next digits hc => exact integer_refused hc h
  · rw [ends_next_bind, ends_pure] at h
    cases h.1
  · rw [ends_next_bind, ends_pure] at h
    cases h.1
  · next hc => exact conditional_refused hs hp hc hn h
  · next hc => exact function_refused hs hp hc hn h
  · next hc => exact unary_refused hp .not hc hn h
  · next hc => exact unary_refused hp .negate hc hn h
  · next hc => exact grouped_refused hs hp hc hn h
  · next hc =>
    rcases block_refused hs hp hn (ends_map_error.1 h) with ⟨hopen, -⟩ | h
    · exact absurd hc hopen
    · exact h
  · exact noOperand_refused h

/-! ### Operators and calls -/

lemma Left.clears {lv : Level} {e : Expression} (h : Left c lv e c') : c.Clears c' := by
  obtain ⟨l, o, ts, hform, -, hpass, -⟩ := h
  obtain ⟨t, hlast, ht⟩ := hform.exists_last
  exact hpass.clears hform.depthAfter hlast ht

/-- A continuation begins with a token that is no brace and no semicolon. -/
lemma clears_of_ofToken? {k : Continuation} (hk : Continuation.ofToken? c.peek = some k) :
    c.Clears c.next := by
  refine clears_next ?_ fun hsemi => by rw [hsemi] at hk; cases hk
  cases k with
  | operator op =>
    rw [Continuation.eq_sign_of_ofToken? hk]
    exact Token.isPlain_binary op
  | arguments =>
    rw [Continuation.eq_leftParen_of_ofToken? hk]
    rfl

lemma continuation_clears (hs : p.Sound) {left a : Expression} {k : Continuation}
    (hk : Continuation.ofToken? c.peek = some k)
    (h : (continuation p left k).Ends c (.ok a) c') : c.Clears c' := by
  have hnext := clears_of_ofToken? hk
  cases k with
  | operator op =>
    rw [continuation, ends_called, binary, ends_next_bind] at h
    obtain ⟨right, hright, -⟩ := ends_map_ok.1 h
    exact hnext.trans (hs.expression hright).clears
  | arguments =>
    rw [continuation, call, ends_next_bind] at h
    obtain ⟨arguments, harguments, -⟩ := ends_map_ok.1 h
    exact hnext.trans (items_clears (fun h => (hs.expression h).clears) harguments)

lemma continuation_refused (hs : p.Sound) (hp : p.Refused n) {left : Expression}
    {k : Continuation} (hk : Continuation.ofToken? c.peek = some k) (hn : c.rest.length ≤ n + 1)
    (h : (continuation p left k).Ends c (.error e) c') : c.Refuses e c' := by
  have hnext := clears_of_ofToken? hk
  have hlt := hnext.length_lt
  cases k with
  | operator op =>
    rw [continuation, ends_called, binary, ends_next_bind, ends_map_error] at h
    exact (hp.expression (by omega) h).behind hnext
  | arguments =>
    rw [continuation, call, ends_next_bind, ends_map_error] at h
    have hrefuses := items_refused (fun h => (hs.expression h).clears) hp.expression (by omega) h
    exact hrefuses.behind hnext

lemma continued_refused (hs : p.Sound) (hp : p.Refused n) {lv : Level} {left : Expression}
    (hn : c.rest.length ≤ n + 1) {m : Nat} (h : (continued p lv m left).Ends c (.error e) c') :
    c.Refuses e c' := by
  induction m generalizing c left with
  | zero => cases (ends_pure.1 h).1
  | succ m ih =>
    rw [continued, ends_peek_bind] at h
    split at h
    · next k hk =>
      split at h
      · rcases ends_bind_error.1 h with h | ⟨a, c₁, ha, h⟩
        · exact continuation_refused hs hp hk hn h
        · have hclears := continuation_clears hs hk ha
          have hlt := hclears.length_lt
          exact (ih (by omega) h).behind hclears
      · cases (ends_pure.1 h).1
    · cases (ends_pure.1 h).1

theorem expression_refused (hs : p.Sound) (hp : p.Refused n) {lv : Level}
    (hn : c.rest.length ≤ n + 1) (h : (expression p lv).Ends c (.error e) c') :
    c.Refuses e c' := by
  rw [expression, ends_called] at h
  rcases ends_bind_error.1 h with h | ⟨left, c₁, hleft, h⟩
  · exact operand_refused hs hp hn h
  · have hclears := (operand_sound hs lv hleft).clears
    have hlt := hclears.length_lt
    rw [ends_unread_bind] at h
    exact (continued_refused hs hp (by omega) h).behind hclears

end Grammar

/-- The parsers for the parts of a text fail in one of the two ways. -/
theorem Parts.refused_ofDepth (n : Nat) : (Parts.ofDepth n).Refused n := by
  induction n with
  | zero =>
    constructor
    · intro lv c e c' _ h
      rw [Parts.ofDepth, Parser.ends_called] at h
      exact Grammar.noOperand_refused h
    · intro c e c' hn hc _
      have hlength := Cursor.length_eq_next (by simp [hc] : c.peek ≠ .endOfInput)
      omega
  | succ n ih =>
    have hs := Parts.sound_ofDepth n
    refine ⟨fun hn h => Grammar.expression_refused hs ih hn h, fun hn hc h => ?_⟩
    rcases Grammar.block_refused hs ih hn h with ⟨hopen, -⟩ | h
    · exact absurd hc hopen
    · exact h

end TreeWalk
