/-
# Texts that go on

A parser looks at one token at a time.  So when it stops in front of a token, or fails because of
one, it does the same in every longer text; what stands further behind makes no difference.  Only
an ending that owes to the end of the input can change when the text goes on, and it does not if
the text goes on with an end of input.  A parser that fails by reading the end is then one token
further than before.

The bounds on the depth of parts and on the length of lists change with the text.  They make no
difference either, and with nothing put behind this is all that the lemmas below say.
-/
import TreeWalk.Proofs.Refusal

namespace TreeWalk

/-- The place with more tokens behind it. -/
def Cursor.append (c : Cursor) (us : List Token) : Cursor :=
  { c with rest := c.rest ++ us }

@[simp] lemma Cursor.append_nil (c : Cursor) : c.append [] = c := by
  simp [append]

/-- The place behind the end of the input, when the end is the first token of `us`. -/
def Cursor.pastEnd (c : Cursor) (us : List Token) : Cursor :=
  { c with rest := us.tail }

/-- Nothing is put behind a text, or an end of input comes first. -/
def Token.AtEnd (us : List Token) : Prop :=
  us.headD .endOfInput = .endOfInput

namespace Parser

/-- An ending that does not owe to the end of the input, or an end of input is put behind. -/
def Settled {α : Type} (us : List Token) : Except ParseError α → Cursor → Prop
  | .ok _, c => Token.AtEnd us ∨ c.rest ≠ []
  | .error e, _ => Token.AtEnd us ∨ e.found ≠ .endOfInput

/-- Where a parser stops that stopped at `c` before `us` was put behind: at the same place, or
behind the end that it failed by reading. -/
def Follows {α : Type} (us : List Token) : Except ParseError α → Cursor → Cursor → Prop
  | .ok _, c, d => d = c.append us
  | .error e, c, d => d = c.append us ∨
    e.found = .endOfInput ∧ c.last = .endOfInput ∧ c.rest = [] ∧ d = c.pastEnd us

/-- What `p` does at the place `c`, `q` does when `us` is put behind, if the ending does not owe to
the end of the input; and then the place looks the same to begin with. -/
def Carries {α : Type} (us : List Token) (c : Cursor) (p q : Parser α) : Prop :=
  ∀ r c', p.Ends c r c' → Settled us r c' →
    (Token.AtEnd us ∨ c.rest ≠ []) ∧ ∃ d, q.Ends (c.append us) r d ∧ Follows us r c' d

variable {α β : Type} {us : List Token} {c c' d : Cursor} {p q : Parser α} {f g : α → Parser β}
  {e : ParseError}

lemma Follows.eq_of_nil {r : Except ParseError α} (h : Follows [] r c' d) : d = c' := by
  cases r with
  | ok a =>
    rw [show d = c'.append [] from h, Cursor.append_nil]
  | error e =>
    obtain rfl | ⟨-, -, hrest, rfl⟩ := h
    · exact Cursor.append_nil c'
    · rw [Cursor.pastEnd, List.tail_nil, ← hrest]

lemma Follows.eq_of_found (h : Follows us (.error e : Except ParseError α) c' d)
    (he : e.found ≠ .endOfInput) : d = c'.append us :=
  h.resolve_right fun hpast => he hpast.1

lemma peek_append (h : Token.AtEnd us ∨ c.rest ≠ []) : (c.append us).peek = c.peek := by
  obtain ⟨last, rest, d⟩ := c
  cases rest with
  | nil => exact h.resolve_right fun hne => hne rfl
  | cons t rest => rfl

lemma peek_append_ne (h : c.peek ≠ .endOfInput) : (c.append us).peek ≠ .endOfInput := by
  rwa [peek_append (Or.inr (Cursor.rest_ne_nil h))]

lemma next_append (h : c.rest ≠ []) : (c.append us).next = c.next.append us := by
  obtain ⟨last, rest, d⟩ := c
  cases rest with
  | nil => exact absurd rfl h
  | cons t rest => rfl

/-! ### Steps -/

lemma Carries.bind (hp : Carries us c p q)
    (hf : ∀ a c₁, p.Ends c (.ok a) c₁ → Carries us c₁ (f a) (g a)) :
    Carries us c (p >>= f) (q >>= g) := by
  intro r c' h hsettled
  rcases hr : (p c).result with e | a
  · have hend : p.Ends c (.error e) (p c).cursor := ⟨hr, rfl⟩
    obtain ⟨rfl, rfl⟩ := (ends_bind_of_error hend).1 h
    obtain ⟨hc, d, hq, hd⟩ := hp _ _ hend hsettled
    exact ⟨hc, d, (ends_bind_of_error hq).2 ⟨rfl, rfl⟩, hd⟩
  · have hend : p.Ends c (.ok a) (p c).cursor := ⟨hr, rfl⟩
    -- what comes next looks the same to begin with, so the first parser has settled as well
    obtain ⟨hc₁, hg⟩ := hf a _ hend _ _ ((ends_bind_of_ok hend).1 h) hsettled
    obtain ⟨hc, d, hq, rfl⟩ := hp _ _ hend hc₁
    obtain ⟨d, hd, hfollows⟩ := hg
    exact ⟨hc, d, (ends_bind_of_ok hq).2 hd, hfollows⟩

/-- Parsers that act as others do at the place. -/
lemma Carries.congr {p' q' : Parser α} (h : Carries us c p' q') (hp : p c = p' c)
    (hq : (c.append us).peek = c.peek → q (c.append us) = q' (c.append us)) :
    Carries us c p q := by
  intro r c' hend hsettled
  rw [Ends, hp] at hend
  obtain ⟨hc, d, hd, hfollows⟩ := h _ _ hend hsettled
  refine ⟨hc, d, ?_, hfollows⟩
  rw [Ends, hq (peek_append hc)]
  exact hd

lemma carries_pure (a : α) : Carries us c (pure a) (pure a) := by
  intro r c' h hsettled
  obtain ⟨rfl, rfl⟩ := ends_pure.1 h
  exact ⟨hsettled, _, ⟨rfl, rfl⟩, rfl⟩

lemma carries_called {x : Routine} (h : Carries us c p q) :
    Carries us c (called x p) (called x q) := by
  intro r c' hend hsettled
  simp only [ends_called] at hend ⊢
  exact h _ _ hend hsettled

lemma Carries.peek_bind {f g : Token → Parser β} (h : Carries us c (f c.peek) (g c.peek)) :
    Carries us c (peek >>= f) (peek >>= g) := by
  intro r c' hend hsettled
  obtain ⟨hc, hg⟩ := h _ _ hend hsettled
  simp only [ends_peek_bind, peek_append hc]
  exact ⟨hc, hg⟩

/-- A token in front of the end is read. -/
lemma Carries.next_bind {f g : Unit → Parser β} (hne : c.peek ≠ .endOfInput)
    (h : Carries us c.next (f ()) (g ())) : Carries us c (next >>= f) (next >>= g) := by
  intro r c' hend hsettled
  have hc : c.rest ≠ [] := Cursor.rest_ne_nil hne
  obtain ⟨-, hg⟩ := h _ _ hend hsettled
  simp only [ends_next_bind, next_append hc]
  exact ⟨Or.inr hc, hg⟩

lemma Carries.unread_bind {f g : Nat → Parser β}
    (h : Carries us c (f c.rest.length) (g (c.rest.length + us.length))) :
    Carries us c (unread >>= f) (unread >>= g) := by
  intro r c' hend hsettled
  simp only [ends_unread_bind, Cursor.append, List.length_append]
  exact h _ _ hend hsettled

lemma Carries.enter_bind {f g : Unit → Parser β}
    (h : Carries us { c with depth := c.depth + 1 } (f ()) (g ())) :
    Carries us c (enter >>= f) (enter >>= g) :=
  fun _ _ hend hsettled => h _ _ hend hsettled

lemma Carries.leave_bind {f g : Unit → Parser β}
    (h : Carries us { c with depth := c.depth - 1 } (f ()) (g ())) :
    Carries us c (leave >>= f) (leave >>= g) :=
  fun _ _ hend hsettled => h _ _ hend hsettled

/-- A place at which an error is settled that speaks of the next token. -/
lemma looks_same_of_found (he : e.found = c.peek)
    (hsettled : Settled us (.error e : Except ParseError α) c') :
    Token.AtEnd us ∨ c.rest ≠ [] := by
  refine hsettled.imp_right fun hne hrest => hne ?_
  rw [he, Cursor.peek, hrest]
  rfl

/-- An error that speaks of the next token. -/
lemma carries_fail (he : e.found = c.peek) : Carries us c (fail e : Parser α) (fail e) := by
  intro r c' h hsettled
  obtain ⟨rfl, rfl⟩ := ends_fail.1 h
  exact ⟨looks_same_of_found he hsettled, _, ⟨rfl, rfl⟩, Or.inl rfl⟩

/-- An error that speaks of the token in front, which may be the end. -/
lemma carries_next_fail (he : e.found = c.peek) :
    Carries us c (next >>= fun _ => fail e : Parser α) (next >>= fun _ => fail e) := by
  intro r c' h hsettled
  obtain ⟨rfl, rfl⟩ := ends_fail.1 h
  have hc := looks_same_of_found he hsettled
  refine ⟨hc, (c.append us).next, ⟨rfl, rfl⟩, ?_⟩
  by_cases hrest : c.rest = []
  · have hpeek : c.peek = .endOfInput := by simp [Cursor.peek, hrest]
    refine Or.inr ⟨he.trans hpeek, hpeek, by simp [hrest], ?_⟩
    rw [Cursor.next, peek_append hc]
    simp [Cursor.append, Cursor.pastEnd, Cursor.next, hrest]
  · exact Or.inl (next_append hrest)

lemma Carries.expect_bind {x : Symbol} {f g : Unit → Parser β}
    (h : c.peek = .symbol x → Carries us c.next (f ()) (g ())) :
    Carries us c (expect (.symbol x) >>= f) (expect (.symbol x) >>= g) := by
  intro r c' hend hsettled
  rw [ends_expect_bind] at hend
  obtain ⟨hc, hend⟩ | ⟨hc, rfl, rfl⟩ := hend
  · have hnext : Carries us c (next >>= f) (next >>= g) := .next_bind (by simp [hc]) (h hc)
    obtain ⟨hrest, d, hg, hd⟩ := hnext _ _ hend hsettled
    rw [ends_next_bind] at hg
    exact ⟨hrest, d, (ends_expect_of_eq ((peek_append hrest).trans hc)).2 hg, hd⟩
  · have hsame : Token.AtEnd us ∨ c.rest ≠ [] := looks_same_of_found rfl hsettled
    refine ⟨hsame, c.append us, ?_, Or.inl rfl⟩
    rw [ends_expect_bind, peek_append hsame]
    exact Or.inr ⟨hc, rfl, rfl⟩

lemma skipping_append {x : Symbol} (h : Token.AtEnd us ∨ c.rest ≠ []) :
    (c.append us).skipping (.symbol x) = (c.skipping (.symbol x)).append us := by
  rw [Cursor.skipping, Cursor.skipping, peek_append h]
  split
  · next hc => exact next_append (Cursor.rest_ne_nil (by simp [hc]))
  · rfl

lemma Carries.skip_bind {x : Symbol} {f g : Unit → Parser β}
    (h : Carries us (c.skipping (.symbol x)) (f ()) (g ())) :
    Carries us c (skip (.symbol x) >>= f) (skip (.symbol x) >>= g) := by
  intro r c' hend hsettled
  rw [ends_skip_bind] at hend
  obtain ⟨hskip, hg⟩ := h _ _ hend hsettled
  have hc : Token.AtEnd us ∨ c.rest ≠ [] := by
    refine hskip.imp_right fun hne hrest => hne ?_
    rw [Cursor.skipping]
    split <;> simp [hrest]
  simp only [ends_skip_bind, skipping_append hc]
  exact ⟨hc, hg⟩

end Parser

/-- The parsers for the parts of a text of at most `n` tokens carry over to those for a text of at
most `m` tokens. -/
structure Parts.Carries (us : List Token) (p q : Parts) (n m : Nat) : Prop where
  expression : ∀ {lv c}, c.rest.length ≤ n → c.rest.length + us.length ≤ m →
    Parser.Carries us c (p.expression lv) (q.expression lv)
  block : ∀ {c}, c.rest.length ≤ n → c.rest.length + us.length ≤ m →
    Parser.Carries us c p.block q.block

namespace Grammar

open TreeWalk.Parser TreeWalk.Cursor

variable {us : List Token} {p q : Parts} {n m : Nat} {c : Cursor}

/-! ### Statements and blocks -/

lemma ended_carries {x y : Parser Expression} (f : Expression → Statement)
    (h : Carries us c x y) :
    Carries us c (x >>= fun e => skip (.symbol .semicolon) >>= fun _ => pure (f e))
      (y >>= fun e => skip (.symbol .semicolon) >>= fun _ => pure (f e)) :=
  h.bind fun _ _ _ => .skip_bind (carries_pure _)

lemma binding_carries (hp : p.Carries us q n m) (hne : c.peek ≠ .endOfInput)
    (hn : c.rest.length ≤ n) (hm : c.rest.length + us.length ≤ m) :
    Carries us c (binding p) (binding q) := by
  refine .next_bind hne (.peek_bind ?_)
  split
  · next name hname =>
    refine .next_bind (by simp [hname]) (.expect_bind fun _ =>
      ended_carries _ (hp.expression ?_ ?_))
    · simp
      omega
    · simp
      omega
  · exact carries_fail rfl

theorem statement_carries (hp : p.Carries us q n m) (hn : c.rest.length ≤ n)
    (hm : c.rest.length + us.length ≤ m) : Carries us c (statement p) (statement q) := by
  refine carries_called (.peek_bind ?_)
  split
  · next hc => exact binding_carries hp (by simp [hc]) hn hm
  · next hc =>
    refine .next_bind (by simp [hc]) (ended_carries _ (hp.expression ?_ ?_))
    · simp
      omega
    · simp
      omega
  · exact (hp.block hn hm).bind fun _ _ _ => .skip_bind (carries_pure _)
  · exact carries_called (ended_carries _ (hp.expression hn hm))

lemma unclosed_carries {α : Type} (hc : c.peek = .endOfInput) :
    Carries us c (unclosed : Parser α) unclosed :=
  carries_next_fail hc.symm

lemma statements_of_end (hc : c.peek = .endOfInput) (i : Nat) :
    statements p i c = (unclosed : Parser _) c := by
  cases i with
  | zero => rfl
  | succ i =>
    rw [statements, peek_bind, hc]

lemma statements_carries_end (hc : c.peek = .endOfInput) (i j : Nat) :
    Carries us c (statements p i) (statements q j) :=
  (unclosed_carries hc).congr (statements_of_end hc i)
    fun hpeek => statements_of_end (hpeek.trans hc) j

lemma statements_carries (hs : p.Sound) (hp : p.Carries us q n m) (hn : c.rest.length ≤ n)
    (hm : c.rest.length + us.length ≤ m) {i j : Nat} (hi : c.rest.length ≤ i)
    (hj : c.rest.length + us.length ≤ j) :
    Carries us c (statements p i) (statements q j) := by
  induction i generalizing c j with
  | zero => exact statements_carries_end (peek_of_length_eq_zero (Nat.le_zero.1 hi)) 0 j
  | succ i ih =>
    by_cases hc : c.peek = .endOfInput
    · exact statements_carries_end hc (i + 1) j
    have hlength := length_eq_next hc
    obtain ⟨j, rfl⟩ : ∃ k, j = k + 1 := ⟨j - 1, by omega⟩
    refine .peek_bind ?_
    split
    · exact .next_bind hc (.leave_bind (carries_pure _))
    · next hend => exact unclosed_carries hend
    · refine (statement_carries hp hn hm).bind fun s c₁ hstatement => ?_
      have hlt := (statement_sound hs hstatement).length_lt
      exact (ih (by omega) (by omega) (by omega) (by omega)).bind fun _ _ _ => carries_pure _

theorem block_carries (hs : p.Sound) (hp : p.Carries us q n m) (hn : c.rest.length ≤ n + 1)
    (hm : c.rest.length + us.length ≤ m + 1) : Carries us c (block p) (block q) := by
  refine .expect_bind fun hc => .enter_bind (.unread_bind ?_)
  have hlength := length_eq_next (by simp [hc] : c.peek ≠ .endOfInput)
  refine statements_carries hs hp ?_ ?_ (Nat.le_refl _) (Nat.le_refl _)
  · change c.next.rest.length ≤ n
    omega
  · change c.next.rest.length + us.length ≤ m
    omega

/-! ### Lists of arguments and parameters -/

section Lists

variable {α : Type} {x y : Parser α}

lemma moreItems_of_end (hc : c.peek = .endOfInput) (i : Nat) :
    moreItems x i c = ⟨.ok [], c, []⟩ := by
  cases i with
  | zero => rfl
  | succ i =>
    rw [moreItems, peek_bind, hc]
    rfl

lemma moreItems_carries_end (hc : c.peek = .endOfInput) (i j : Nat) :
    Carries us c (moreItems x i) (moreItems y j) :=
  (carries_pure []).congr (moreItems_of_end hc i)
    fun hpeek => moreItems_of_end (hpeek.trans hc) j

lemma moreItems_carries (hx : ∀ {c a c'}, x.Ends c (.ok a) c' → c.Clears c')
    (hxy : ∀ {c}, c.rest.length ≤ n → c.rest.length + us.length ≤ m → Carries us c x y)
    (hn : c.rest.length ≤ n) (hm : c.rest.length + us.length ≤ m) {i j : Nat}
    (hi : c.rest.length ≤ i) (hj : c.rest.length + us.length ≤ j) :
    Carries us c (moreItems x i) (moreItems y j) := by
  induction i generalizing c j with
  | zero => exact moreItems_carries_end (peek_of_length_eq_zero (Nat.le_zero.1 hi)) 0 j
  | succ i ih =>
    by_cases hc : c.peek = .endOfInput
    · exact moreItems_carries_end hc (i + 1) j
    have hlength := length_eq_next hc
    obtain ⟨j, rfl⟩ : ∃ k, j = k + 1 := ⟨j - 1, by omega⟩
    refine .peek_bind ?_
    split
    · refine .next_bind hc ((hxy (by omega) (by omega)).bind fun a c₁ ha => ?_)
      have hlt := (hx ha).length_lt
      exact (ih (by omega) (by omega) (by omega) (by omega)).bind fun _ _ _ => carries_pure _
    · exact carries_pure _

lemma items_carries (hx : ∀ {c a c'}, x.Ends c (.ok a) c' → c.Clears c')
    (hxy : ∀ {c}, c.rest.length ≤ n → c.rest.length + us.length ≤ m → Carries us c x y)
    (hn : c.rest.length ≤ n) (hm : c.rest.length + us.length ≤ m) :
    Carries us c (items x) (items y) := by
  refine .peek_bind ?_
  split
  · next hc => exact .next_bind (by simp [hc]) (carries_pure _)
  · refine (hxy hn hm).bind fun a c₁ ha => .unread_bind ?_
    have hlt := (hx ha).length_lt
    refine (moreItems_carries hx hxy ?_ ?_ (Nat.le_refl _) (Nat.le_refl _)).bind fun _ _ _ => ?_
    · omega
    · omega
    · exact .expect_bind fun _ => carries_pure _

end Lists

lemma parameter_carries : Carries us c parameter parameter := by
  refine .peek_bind ?_
  split
  · next name hname => exact .next_bind (by simp [hname]) (carries_pure _)
  · exact carries_next_fail rfl

/-! ### Operands -/

lemma integer_carries {digits : String} (hc : c.peek = .int digits) :
    Carries us c (integer digits) (integer digits) := by
  rw [integer]
  split
  · exact .next_bind (by simp [hc]) (carries_pure _)
  · exact carries_next_fail hc.symm

lemma grouped_carries (hp : p.Carries us q n m) (hne : c.peek ≠ .endOfInput)
    (hn : c.next.rest.length ≤ n) (hm : c.next.rest.length + us.length ≤ m) :
    Carries us c (grouped p) (grouped q) :=
  .next_bind hne ((hp.expression hn hm).bind fun _ _ _ => .expect_bind fun _ => carries_pure _)

lemma conditional_carries (hs : p.Sound) (hp : p.Carries us q n m)
    (hne : c.peek ≠ .endOfInput) (hn : c.next.rest.length ≤ n)
    (hm : c.next.rest.length + us.length ≤ m) :
    Carries us c (conditional p) (conditional q) := by
  have hnext : c.next.next.rest.length ≤ c.next.rest.length := by simp
  refine .next_bind hne (.expect_bind fun _ => ?_)
  refine (hp.expression (by omega) (by omega)).bind fun condition c₁ hcondition => ?_
  have hlt := (hs.expression hcondition).clears.length_lt
  have hnext₁ : c₁.next.rest.length ≤ c₁.rest.length := by simp
  refine .expect_bind fun _ => ?_
  refine (block_carries hs hp (by omega) (by omega)).bind fun consequence c₂ hconsequence => ?_
  have hlt₂ := (block_sound hs hconsequence).clears.length_lt
  have hnext₂ : c₂.next.rest.length ≤ c₂.rest.length := by simp
  refine .peek_bind ?_
  split
  · next helse =>
    refine .next_bind (by simp [helse]) ((block_carries hs hp ?_ ?_).bind
      fun _ _ _ => carries_pure _)
    · omega
    · omega
  · exact carries_pure _

lemma function_carries (hs : p.Sound) (hp : p.Carries us q n m) (hne : c.peek ≠ .endOfInput)
    (hn : c.next.rest.length ≤ n) (hm : c.next.rest.length + us.length ≤ m) :
    Carries us c (function p) (function q) := by
  have hnext : c.next.next.rest.length ≤ c.next.rest.length := by simp
  refine .next_bind hne (.expect_bind fun _ => ?_)
  have hitems : Carries us c.next.next (items parameter) (items parameter) :=
    items_carries parameter_clears (fun _ _ => parameter_carries) (Nat.le_refl _) (Nat.le_refl _)
  refine hitems.bind fun names c₁ hnames => ?_
  have hlt := (items_clears parameter_clears hnames).length_lt
  exact (block_carries hs hp (by omega) (by omega)).bind fun _ _ _ => carries_pure _

theorem operand_carries (hs : p.Sound) (hp : p.Carries us q n m) (hn : c.rest.length ≤ n + 1)
    (hm : c.rest.length + us.length ≤ m + 1) : Carries us c (operand p) (operand q) := by
  refine .peek_bind ?_
  split
  · next hc => exact .next_bind (by simp [hc]) (carries_pure _)
  · next hc => exact carries_called (integer_carries hc)
  · next hc => exact .next_bind (by simp [hc]) (carries_pure _)
  · next hc => exact .next_bind (by simp [hc]) (carries_pure _)
  · next hc =>
    have hne : c.peek ≠ .endOfInput := by simp [hc]
    have hlength := length_eq_next hne
    exact conditional_carries hs hp hne (by omega) (by omega)
  · next hc =>
    have hne : c.peek ≠ .endOfInput := by simp [hc]
    have hlength := length_eq_next hne
    exact function_carries hs hp hne (by omega) (by omega)
  · next hc =>
    have hne : c.peek ≠ .endOfInput := by simp [hc]
    have hlength := length_eq_next hne
    exact carries_called (.next_bind hne ((hp.expression (by omega) (by omega)).bind
      fun _ _ _ => carries_pure _))
  · next hc =>
    have hne : c.peek ≠ .endOfInput := by simp [hc]
    have hlength := length_eq_next hne
    exact carries_called (.next_bind hne ((hp.expression (by omega) (by omega)).bind
      fun _ _ _ => carries_pure _))
  · next hc =>
    have hne : c.peek ≠ .endOfInput := by simp [hc]
    have hlength := length_eq_next hne
    exact grouped_carries hp hne (by omega) (by omega)
  · exact (block_carries hs hp hn hm).bind fun _ _ _ => carries_pure _
  · exact .peek_bind (carries_next_fail rfl)

/-! ### Operators and calls -/

lemma continuation_carries (hs : p.Sound) (hp : p.Carries us q n m) (left : Expression)
    (k : Continuation) (hne : c.peek ≠ .endOfInput) (hn : c.next.rest.length ≤ n)
    (hm : c.next.rest.length + us.length ≤ m) :
    Carries us c (continuation p left k) (continuation q left k) := by
  cases k with
  | operator op =>
    exact carries_called (.next_bind hne ((hp.expression hn hm).bind fun _ _ _ => carries_pure _))
  | arguments =>
    have hitems : Carries us c.next (items (p.expression .lowest)) (items (q.expression .lowest)) :=
      items_carries (fun h => (hs.expression h).clears) hp.expression hn hm
    exact .next_bind hne (hitems.bind fun _ _ _ => carries_pure _)

lemma continued_of_end {lv : Level} {left : Expression} (hc : c.peek = .endOfInput) (i : Nat) :
    continued p lv i left c = ⟨.ok left, c, []⟩ := by
  cases i with
  | zero => rfl
  | succ i =>
    rw [continued, peek_bind, hc]
    rfl

lemma continued_carries_end {lv : Level} {left : Expression} (hc : c.peek = .endOfInput)
    (i j : Nat) : Carries us c (continued p lv i left) (continued q lv j left) :=
  (carries_pure left).congr (continued_of_end hc i)
    fun hpeek => continued_of_end (hpeek.trans hc) j

lemma continued_carries (hs : p.Sound) (hp : p.Carries us q n m) {lv : Level} {left : Expression}
    (hn : c.rest.length ≤ n + 1) (hm : c.rest.length + us.length ≤ m + 1) {i j : Nat}
    (hi : c.rest.length ≤ i) (hj : c.rest.length + us.length ≤ j) :
    Carries us c (continued p lv i left) (continued q lv j left) := by
  induction i generalizing c j left with
  | zero => exact continued_carries_end (peek_of_length_eq_zero (Nat.le_zero.1 hi)) 0 j
  | succ i ih =>
    by_cases hc : c.peek = .endOfInput
    · exact continued_carries_end hc (i + 1) j
    have hlength := length_eq_next hc
    obtain ⟨j, rfl⟩ : ∃ k, j = k + 1 := ⟨j - 1, by omega⟩
    refine .peek_bind ?_
    split
    · next k hk =>
      split
      · refine (continuation_carries hs hp left k hc (by omega) (by omega)).bind fun e c₁ he => ?_
        have hlt := (continuation_clears hs hk he).length_lt
        exact ih (by omega) (by omega) (by omega) (by omega)
      · exact carries_pure _
    · exact carries_pure _

theorem expression_carries (hs : p.Sound) (hp : p.Carries us q n m) {lv : Level}
    (hn : c.rest.length ≤ n + 1) (hm : c.rest.length + us.length ≤ m + 1) :
    Carries us c (expression p lv) (expression q lv) := by
  refine carries_called ((operand_carries hs hp hn hm).bind fun left c₁ hleft => .unread_bind ?_)
  have hlt := (operand_sound hs lv hleft).clears.length_lt
  exact continued_carries hs hp (by omega) (by omega) (Nat.le_refl _) (Nat.le_refl _)

end Grammar

/-! ### The parsers for the parts -/

namespace Parts

open TreeWalk.Parser TreeWalk.Cursor

variable {us : List Token} {c : Cursor} {lv : Level}

lemma expression_of_end (hc : c.peek = .endOfInput) (n : Nat) :
    (ofDepth n : Parts).expression lv c = (called .expression Grammar.noOperand : Parser _) c := by
  obtain ⟨last, rest, d⟩ := c
  cases rest with
  | nil => cases n <;> rfl
  | cons t rest =>
    obtain rfl : t = .endOfInput := hc
    cases n <;> rfl

lemma block_of_end (hc : c.peek = .endOfInput) (n : Nat) :
    (ofDepth n : Parts).block c = ⟨.error (.expected (.symbol .leftBrace) .endOfInput), c, []⟩ := by
  obtain ⟨last, rest, d⟩ := c
  cases rest with
  | nil => cases n <;> rfl
  | cons t rest =>
    obtain rfl : t = .endOfInput := hc
    cases n <;> rfl

lemma expression_carries_end (hc : c.peek = .endOfInput) (n m : Nat) :
    Parser.Carries us c ((ofDepth n : Parts).expression lv) ((ofDepth m : Parts).expression lv) :=
  (carries_called (.peek_bind (carries_next_fail rfl))).congr (expression_of_end hc n)
    fun hpeek => expression_of_end (hpeek.trans hc) m

lemma block_carries_end (hc : c.peek = .endOfInput) (n m : Nat) :
    Parser.Carries us c (ofDepth n : Parts).block (ofDepth m : Parts).block := by
  have hfail : Parser.Carries us c (fail (.expected (.symbol .leftBrace) .endOfInput))
      (fail (.expected (.symbol .leftBrace) .endOfInput) : Parser (List Statement)) :=
    carries_fail hc.symm
  exact hfail.congr (block_of_end hc n) fun hpeek => block_of_end (hpeek.trans hc) m

/-- What the parsers for the parts of a text do, those for a longer text do as well. -/
theorem carries_ofDepth (us : List Token) (n m : Nat) :
    (ofDepth n).Carries us (ofDepth m) n m := by
  induction n generalizing m with
  | zero =>
    constructor
    · intro lv c hn _
      exact expression_carries_end (peek_of_length_eq_zero (Nat.le_zero.1 hn)) 0 m
    · intro c hn _
      exact block_carries_end (peek_of_length_eq_zero (Nat.le_zero.1 hn)) 0 m
  | succ n ih =>
    cases m with
    | zero =>
      constructor
      · intro lv c _ hm
        exact expression_carries_end (peek_of_length_eq_zero (by omega)) (n + 1) 0
      · intro c _ hm
        exact block_carries_end (peek_of_length_eq_zero (by omega)) (n + 1) 0
    | succ m =>
      have hs := sound_ofDepth n
      exact ⟨fun hn hm => Grammar.expression_carries hs (ih m) hn hm,
        fun hn hm => Grammar.block_carries hs (ih m) hn hm⟩

end Parts
end TreeWalk
