/-
# The tokens between two places

A parser moves a cursor over tokens and counts the blocks it enters and leaves.  When nothing goes
wrong, that count follows the braces among the tokens that were read: `c.Passes ts c'` says that
the tokens `ts` stand at `c`, and that `c'` is the place behind them with their braces counted.

How a parser ends is written `p.Ends c r c'`: at the cursor `c` it gives the result `r`, and it
stops at `c'`.  The calls it makes are left out.  One rule for each step turns a statement about
the end of a parser into one about the ends of its parts.
-/
import Mathlib.Tactic.Common
import TreeWalk.Parse.Program

namespace TreeWalk

/-! ### Braces among tokens -/

namespace Token

/-- The number of open blocks behind a row of tokens, from the number in front of it. -/
def depthAfter (depth : Nat) (ts : List Token) : Nat :=
  ts.foldl depthBehind depth

/-- Is a token neither a brace nor an end of input? -/
def isPlain : Token → Bool
  | .endOfInput => false
  | .symbol .leftBrace => false
  | .symbol .rightBrace => false
  | _ => true

@[simp] lemma depthAfter_nil (d : Nat) : depthAfter d [] = d := rfl

@[simp] lemma depthAfter_cons (d : Nat) (t : Token) (ts : List Token) :
    depthAfter d (t :: ts) = depthAfter (t.depthBehind d) ts := rfl

@[simp] lemma depthAfter_append (d : Nat) (ts us : List Token) :
    depthAfter d (ts ++ us) = depthAfter (depthAfter d ts) us :=
  List.foldl_append

@[simp] lemma depthBehind_leftBrace (d : Nat) :
    (symbol .leftBrace).depthBehind d = d + 1 := rfl

@[simp] lemma depthBehind_rightBrace (d : Nat) :
    (symbol .rightBrace).depthBehind d = d - 1 := rfl

lemma depthBehind_of_ne {t : Token} (hopen : t ≠ .symbol .leftBrace)
    (hclose : t ≠ .symbol .rightBrace) (d : Nat) : t.depthBehind d = d := by
  unfold depthBehind
  split
  · contradiction
  · contradiction
  · rfl

lemma depthBehind_of_isPlain {t : Token} (h : t.isPlain) (d : Nat) : t.depthBehind d = d := by
  apply depthBehind_of_ne
  · rintro rfl
    cases h
  · rintro rfl
    cases h

lemma ne_endOfInput_of_isPlain {t : Token} (h : t.isPlain) : t ≠ .endOfInput := by
  rintro rfl
  cases h

lemma depthBehind_le {t : Token} (h : t ≠ .symbol .leftBrace) (d : Nat) :
    t.depthBehind d ≤ d := by
  unfold depthBehind
  split
  · contradiction
  · exact Nat.sub_le d 1
  · exact Nat.le_refl d

lemma depthBehind_mono {d d' : Nat} (h : d ≤ d') (t : Token) :
    t.depthBehind d ≤ t.depthBehind d' := by
  unfold depthBehind
  split <;> omega

/-- One more block in front is one more behind, unless no block was open. -/
lemma depthBehind_succ {d : Nat} (h : 0 < d) (t : Token) :
    t.depthBehind (d + 1) = t.depthBehind d + 1 := by
  unfold depthBehind
  split <;> omega

lemma eq_rightBrace_of_depthBehind {d : Nat} {t : Token} (h : 0 < d) (ht : t.depthBehind d = 0) :
    t = .symbol .rightBrace := by
  unfold depthBehind at ht
  split at ht
  · omega
  · rfl
  · omega

/-- With fewer blocks open in front, no more are open behind. -/
lemma depthAfter_mono {d d' : Nat} (h : d ≤ d') (ts : List Token) :
    depthAfter d ts ≤ depthAfter d' ts := by
  induction ts generalizing d d' with
  | nil => exact h
  | cons t ts ih => exact ih (depthBehind_mono h t)

end Token

/-! ### Passing tokens -/

namespace Cursor

/-- The place behind the next token, with a brace counted. -/
def pass (c : Cursor) : Cursor :=
  ⟨c.peek, c.rest.tail, c.peek.depthBehind c.depth⟩

/-- The tokens `ts` stand at `c`, and `c'` is the place behind them. -/
def Passes : Cursor → List Token → Cursor → Prop
  | c, [], c' => c' = c
  | c, t :: ts, c' => c.peek = t ∧ t ≠ .endOfInput ∧ c.pass.Passes ts c'

variable {c c' : Cursor} {t : Token} {ts us : List Token}

lemma rest_of_peek (h : c.peek = t) (ht : t ≠ .endOfInput) : c.rest = t :: c.rest.tail := by
  obtain ⟨last, rest, d⟩ := c
  cases rest with
  | nil => exact absurd h.symm ht
  | cons u us => simpa using h

lemma rest_ne_nil (h : c.peek ≠ .endOfInput) : c.rest ≠ [] := by
  intro hrest
  simp [peek, hrest] at h

lemma peek_of_length_eq_zero (h : c.rest.length = 0) : c.peek = .endOfInput := by
  rw [peek, List.eq_nil_of_length_eq_zero h, List.headD_nil]

lemma length_eq_next (h : c.peek ≠ .endOfInput) : c.rest.length = c.next.rest.length + 1 :=
  congrArg List.length (rest_of_peek rfl h)

lemma pass_eq_next (h : c.peek.isPlain) : c.pass = c.next := by
  simp [pass, next, Token.depthBehind_of_isPlain h]

lemma pass_of_leftBrace (h : c.peek = .symbol .leftBrace) :
    c.pass = { c.next with depth := c.next.depth + 1 } := by
  simp [pass, next, h]

lemma pass_of_rightBrace (h : c.peek = .symbol .rightBrace) :
    c.pass = { c.next with depth := c.next.depth - 1 } := by
  simp [pass, next, h]

@[simp] lemma passes_nil : c.Passes [] c' ↔ c' = c := Iff.rfl

lemma Passes.refl (c : Cursor) : c.Passes [] c := rfl

lemma passes_append :
    c.Passes (ts ++ us) c' ↔ ∃ c₁, c.Passes ts c₁ ∧ c₁.Passes us c' := by
  induction ts generalizing c with
  | nil => simp
  | cons t ts ih => simp [Passes, ih, and_assoc]

lemma Passes.trans {c₁ : Cursor} (h : c.Passes ts c₁) (h' : c₁.Passes us c') :
    c.Passes (ts ++ us) c' :=
  passes_append.2 ⟨c₁, h, h'⟩

lemma passes_plain (ht : t.isPlain) :
    c.Passes (t :: ts) c' ↔ c.peek = t ∧ c.next.Passes ts c' := by
  constructor
  · rintro ⟨rfl, -, h⟩
    exact ⟨rfl, pass_eq_next ht ▸ h⟩
  · rintro ⟨rfl, h⟩
    exact ⟨rfl, Token.ne_endOfInput_of_isPlain ht, (pass_eq_next ht).symm ▸ h⟩

/-- Pass one more token in front, which is no brace. -/
lemma Passes.plain (h : c.peek = t) (ht : t.isPlain) (hs : c.next.Passes ts c') :
    c.Passes (t :: ts) c' :=
  (passes_plain ht).2 ⟨h, hs⟩

/-- Pass a single token, which is no brace. -/
lemma Passes.single (h : c.peek = t) (ht : t.isPlain) : c.Passes [t] c.next :=
  .plain h ht (.refl _)

/-- Pass a brace that opens a block. -/
lemma Passes.opened (h : c.peek = .symbol .leftBrace) (hs : c.pass.Passes ts c') :
    c.Passes (.symbol .leftBrace :: ts) c' :=
  ⟨h, by simp, hs⟩

/-- Pass a brace that closes a block. -/
lemma Passes.closed (h : c.peek = .symbol .rightBrace) :
    c.Passes [.symbol .rightBrace] c.pass :=
  ⟨h, by simp, rfl⟩

lemma Passes.rest_eq (h : c.Passes ts c') : c.rest = ts ++ c'.rest := by
  induction ts generalizing c with
  | nil => rw [passes_nil.1 h, List.nil_append]
  | cons t ts ih =>
    obtain ⟨hp, ht, hs⟩ := h
    rw [rest_of_peek hp ht, List.cons_append]
    exact congrArg _ (ih hs)

lemma Passes.length_eq (h : c.Passes ts c') : c.rest.length = ts.length + c'.rest.length := by
  rw [h.rest_eq, List.length_append]

lemma Passes.length_eq_succ (h : c.Passes [t] c') : c.rest.length = c'.rest.length + 1 := by
  rw [h.length_eq, List.length_singleton, Nat.add_comm]

lemma Passes.length_le (h : c.Passes ts c') : c'.rest.length ≤ c.rest.length := by
  rw [h.length_eq]
  exact Nat.le_add_left _ _

lemma Passes.depth_eq (h : c.Passes ts c') : c'.depth = Token.depthAfter c.depth ts := by
  induction ts generalizing c with
  | nil => rw [passes_nil.1 h, Token.depthAfter_nil]
  | cons t ts ih =>
    obtain ⟨rfl, -, hs⟩ := h
    exact ih hs

lemma Passes.last_eq (h : c.Passes ts c') : c'.last = ts.getLastD c.last := by
  induction ts generalizing c with
  | nil => rw [passes_nil.1 h, List.getLastD_nil]
  | cons t ts ih =>
    obtain ⟨rfl, -, hs⟩ := h
    rw [ih hs, List.getLastD_cons]
    rfl

lemma Passes.endOfInput_notMem (h : c.Passes ts c') : .endOfInput ∉ ts := by
  induction ts generalizing c with
  | nil => simp
  | cons t ts ih =>
    obtain ⟨-, ht, hpass⟩ := h
    rw [List.mem_cons, not_or]
    exact ⟨ht.symm, ih hpass⟩

lemma Passes.last_ne (h : c.Passes ts c') (hts : ts ≠ []) : c'.last ≠ .endOfInput := by
  intro hlast
  rw [h.last_eq, List.getLastD_eq_getLast?, List.getLast?_eq_some_getLast hts] at hlast
  exact h.endOfInput_notMem (hlast ▸ List.getLast_mem hts)

/-- The first of the tokens passed is the one that stood at the place. -/
lemma Passes.peek_eq (h : c.Passes (t :: ts) c') : c.peek = t := h.1

/-- What stands at a place is the first token passed, or else what stands behind. -/
lemma Passes.headD_eq (h : c.Passes ts c') : c.peek = ts.headD c'.peek := by
  cases ts with
  | nil => rw [passes_nil.1 h, List.headD_nil]
  | cons t ts => exact h.1

/-- The place behind the next token if that is `t`, else the place itself. -/
def skipping (t : Token) (c : Cursor) : Cursor :=
  if c.peek = t then c.next else c

end Cursor

/-! ### How parsers end -/

namespace Parser

/-- At the cursor `c`, the parser gives the result `r` and stops at `c'`. -/
def Ends {α : Type} (p : Parser α) (c : Cursor) (r : Except ParseError α) (c' : Cursor) : Prop :=
  (p c).result = r ∧ (p c).cursor = c'

variable {α β : Type} {p : Parser α} {f : α → Parser β} {c c' : Cursor}

/-- A parser ends in one way only. -/
lemma Ends.unique {r r' : Except ParseError α} {c'' : Cursor} (h : p.Ends c r c')
    (h' : p.Ends c r' c'') : r = r' ∧ c' = c'' :=
  ⟨h.1.symm.trans h'.1, h.2.symm.trans h'.2⟩

lemma ends_bind_of_ok {r : Except ParseError β} {a : α} {c₁ : Cursor}
    (h : p.Ends c (.ok a) c₁) : (p >>= f).Ends c r c' ↔ (f a).Ends c₁ r c' := by
  obtain ⟨hr, hc⟩ := h
  rcases hp : p c with ⟨result, cursor, calls⟩
  simp only [hp] at hr hc
  subst hr hc
  rw [Ends, bind_of_ok hp, Ends]

lemma ends_bind_of_error {r : Except ParseError β} {e : ParseError} {c₁ : Cursor}
    (h : p.Ends c (.error e) c₁) : (p >>= f).Ends c r c' ↔ .error e = r ∧ c₁ = c' := by
  obtain ⟨hr, hc⟩ := h
  rcases hp : p c with ⟨result, cursor, calls⟩
  simp only [hp] at hr hc
  subst hr hc
  rw [Ends, bind_of_error hp]

/-- Two parsers in a row give a result if both do. -/
lemma ends_bind_ok {b : β} :
    (p >>= f).Ends c (.ok b) c' ↔ ∃ a c₁, p.Ends c (.ok a) c₁ ∧ (f a).Ends c₁ (.ok b) c' := by
  rcases hr : (p c).result with e | a
  · have hp : p.Ends c (.error e) (p c).cursor := ⟨hr, rfl⟩
    rw [ends_bind_of_error hp]
    constructor
    · rintro ⟨h, -⟩
      cases h
    · rintro ⟨a, c₁, h, -⟩
      cases (hp.unique h).1
  · have hp : p.Ends c (.ok a) (p c).cursor := ⟨hr, rfl⟩
    rw [ends_bind_of_ok hp]
    constructor
    · intro h
      exact ⟨a, _, hp, h⟩
    · rintro ⟨a', c₁, h, h'⟩
      obtain ⟨ha, rfl⟩ := hp.unique h
      cases ha
      exact h'

/-- Two parsers in a row fail if the first one does, or the second one behind it. -/
lemma ends_bind_error {e : ParseError} :
    (p >>= f).Ends c (.error e) c' ↔ p.Ends c (.error e) c' ∨
      ∃ a c₁, p.Ends c (.ok a) c₁ ∧ (f a).Ends c₁ (.error e) c' := by
  rcases hr : (p c).result with e' | a
  · have hp : p.Ends c (.error e') (p c).cursor := ⟨hr, rfl⟩
    rw [ends_bind_of_error hp]
    constructor
    · rintro ⟨h, rfl⟩
      cases h
      exact Or.inl hp
    · rintro (h | ⟨a, c₁, h, -⟩)
      · obtain ⟨he, rfl⟩ := hp.unique h
        cases he
        exact ⟨rfl, rfl⟩
      · cases (hp.unique h).1
  · have hp : p.Ends c (.ok a) (p c).cursor := ⟨hr, rfl⟩
    rw [ends_bind_of_ok hp]
    constructor
    · intro h
      exact Or.inr ⟨a, _, hp, h⟩
    · rintro (h | ⟨a', c₁, h, h'⟩)
      · cases (hp.unique h).1
      · obtain ⟨ha, rfl⟩ := hp.unique h
        cases ha
        exact h'

/-- A function of what a parser gives. -/
lemma Ends.map {r : Except ParseError α} (g : α → β) (h : p.Ends c r c') :
    (p >>= fun a => pure (g a)).Ends c (r.map g) c' := by
  cases r with
  | error e => exact (ends_bind_of_error h).2 ⟨rfl, rfl⟩
  | ok a => exact (ends_bind_of_ok h).2 ⟨rfl, rfl⟩

/-- A function of what a parser gives is given if the parser gives something. -/
lemma ends_map_ok {g : α → β} {b : β} :
    (p >>= fun a => pure (g a)).Ends c (.ok b) c' ↔ ∃ a, p.Ends c (.ok a) c' ∧ b = g a := by
  rw [ends_bind_ok]
  constructor
  · rintro ⟨a, c₁, ha, hb, rfl⟩
    exact ⟨a, ha, (Except.ok.inj hb).symm⟩
  · rintro ⟨a, ha, rfl⟩
    exact ⟨a, c', ha, rfl, rfl⟩

/-- A function of what a parser gives is not given if the parser fails. -/
lemma ends_map_error {g : α → β} {e : ParseError} :
    (p >>= fun a => pure (g a)).Ends c (.error e) c' ↔ p.Ends c (.error e) c' := by
  rw [ends_bind_error, or_iff_left]
  rintro ⟨a, c₁, -, h, -⟩
  cases h

variable {r : Except ParseError β}

@[simp] lemma ends_pure {a : α} {r : Except ParseError α} :
    (pure a : Parser α).Ends c r c' ↔ .ok a = r ∧ c = c' := Iff.rfl

@[simp] lemma ends_fail {e : ParseError} {r : Except ParseError α} :
    (fail e : Parser α).Ends c r c' ↔ .error e = r ∧ c = c' := Iff.rfl

@[simp] lemma ends_called {x : Routine} {r : Except ParseError α} :
    (called x p).Ends c r c' ↔ p.Ends c r c' := Iff.rfl

@[simp] lemma ends_peek_bind {f : Token → Parser β} :
    (peek >>= f).Ends c r c' ↔ (f c.peek).Ends c r c' := Iff.rfl

@[simp] lemma ends_next_bind {f : Unit → Parser β} :
    (next >>= f).Ends c r c' ↔ (f ()).Ends c.next r c' := Iff.rfl

@[simp] lemma ends_unread_bind {f : Nat → Parser β} :
    (unread >>= f).Ends c r c' ↔ (f c.rest.length).Ends c r c' := Iff.rfl

@[simp] lemma ends_enter_bind {f : Unit → Parser β} :
    (enter >>= f).Ends c r c' ↔ (f ()).Ends { c with depth := c.depth + 1 } r c' := Iff.rfl

@[simp] lemma ends_leave_bind {f : Unit → Parser β} :
    (leave >>= f).Ends c r c' ↔ (f ()).Ends { c with depth := c.depth - 1 } r c' := Iff.rfl

/-- A token that has to stand here is read, or else stays unread. -/
lemma ends_expect_bind {t : Token} {f : Unit → Parser β} :
    (expect t >>= f).Ends c r c' ↔
      c.peek = t ∧ (f ()).Ends c.next r c' ∨
        c.peek ≠ t ∧ .error (.expected t c.peek) = r ∧ c = c' := by
  by_cases h : c.peek = t
  · have he : (expect t : Parser Unit).Ends c (.ok ()) c.next := by simp [Ends, expect, h]
    simp [ends_bind_of_ok he, h]
  · have he : (expect t : Parser Unit).Ends c (.error (.expected t c.peek)) c := by
      simp [Ends, expect, h]
    simp [ends_bind_of_error he, h]

lemma ends_expect_bind_ok {t : Token} {f : Unit → Parser β} {b : β} :
    (expect t >>= f).Ends c (.ok b) c' ↔ c.peek = t ∧ (f ()).Ends c.next (.ok b) c' := by
  rw [ends_expect_bind, or_iff_left]
  rintro ⟨-, h, -⟩
  cases h

lemma ends_expect_bind_error {t : Token} {f : Unit → Parser β} {e : ParseError} :
    (expect t >>= f).Ends c (.error e) c' ↔
      c.peek = t ∧ (f ()).Ends c.next (.error e) c' ∨
        c.peek ≠ t ∧ e = .expected t c.peek ∧ c' = c := by
  rw [ends_expect_bind, Except.error.injEq, eq_comm (a := c),
    eq_comm (a := ParseError.expected t _)]

lemma ends_expect_of_eq {t : Token} {f : Unit → Parser β} (h : c.peek = t) :
    (expect t >>= f).Ends c r c' ↔ (f ()).Ends c.next r c' := by
  simp [ends_expect_bind, h]

@[simp] lemma ends_skip_bind {t : Token} {f : Unit → Parser β} :
    (skip t >>= f).Ends c r c' ↔ (f ()).Ends (c.skipping t) r c' := by
  have he : (skip t : Parser Unit).Ends c (.ok ()) (c.skipping t) := by
    by_cases h : c.peek = t <;> simp [Ends, skip, Cursor.skipping, h]
  exact ends_bind_of_ok he

end Parser
end TreeWalk
